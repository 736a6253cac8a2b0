namespace Coffer

/-! What it takes for a computation that may fail to give a result: every part of it gives
one, and nothing is refused on the way. -/

variable {ε α β : Type _}

theorem ok_bind {found : α} {rest : α → Except ε β} : .ok found >>= rest = rest found := rfl

theorem error_bind {reason : ε} {rest : α → Except ε β} :
    .error reason >>= rest = .error reason := rfl

theorem eq_ok_of_toOption {result : Except ε α} {found : α}
    (present : result.toOption = some found) : result = .ok found := by
  cases result with
  | error reason => cases present
  | ok value =>
      cases present
      rfl

theorem bind_eq_ok_iff {first : Except ε α} {rest : α → Except ε β} {result : β} :
    first >>= rest = .ok result ↔ ∃ found, first = .ok found ∧ rest found = .ok result := by
  cases first with
  | error reason => simp [bind, Except.bind]
  | ok found => simp [bind, Except.bind]

theorem bind_eq_error_iff {first : Except ε α} {rest : α → Except ε β} {reason : ε} :
    first >>= rest = .error reason ↔
      first = .error reason ∨ ∃ found, first = .ok found ∧ rest found = .error reason := by
  cases first with
  | error other => simp [bind, Except.bind]
  | ok found => simp [bind, Except.bind]

theorem map_eq_ok_iff {first : Except ε α} {change : α → β} {result : β} :
    first.map change = .ok result ↔ ∃ found, first = .ok found ∧ change found = result := by
  cases first with
  | error reason => simp [Except.map]
  | ok found => simp [Except.map]

theorem map_bind {γ : Type _} {first : Except ε α} {rest : α → Except ε β} {change : β → γ} :
    (first >>= rest).map change = first >>= fun found => (rest found).map change := by
  cases first <;> rfl

/-- Computations whose parts differ in nothing that an image shows. -/
theorem bind_map_congr {γ δ : Type _} {view : α → γ} {image : β → δ} {first second : Except ε α}
    {rest other : α → Except ε β} (same : first.map view = second.map view)
    (each : ∀ found seen, view found = view seen →
      (rest found).map image = (other seen).map image) :
    (first >>= rest).map image = (second >>= other).map image := by
  cases first with
  | error reason =>
      cases second with
      | error another =>
          cases same
          rfl
      | ok seen => cases same
  | ok found =>
      cases second with
      | error another => cases same
      | ok seen => exact each found seen (Except.ok.inj same)

theorem pure_eq_ok_iff {value result : α} :
    (pure value : Except ε α) = .ok result ↔ value = result := by
  simp [pure, Except.pure]

/-- A check that throws, before the rest of a computation. -/
theorem guarded_eq_ok_iff {refused : Prop} [Decidable refused] {error : ε}
    {rest : PUnit → Except ε β} {result : β} :
    (if refused then (throw error : Except ε PUnit) >>= rest else rest ⟨⟩) = .ok result ↔
      ¬ refused ∧ rest ⟨⟩ = .ok result := by
  by_cases holds : refused <;> simp [holds, throw, throwThe, MonadExceptOf.throw, bind, Except.bind]

/-- A check that is made only where it is needed, before the rest of a computation. -/
theorem checked_eq_ok_iff {needed : Prop} [Decidable needed] {check : Except ε PUnit}
    {rest : PUnit → Except ε β} {result : β} :
    (if needed then check >>= rest else rest ⟨⟩) = .ok result ↔
      (needed → check = .ok ⟨⟩) ∧ rest ⟨⟩ = .ok result := by
  by_cases holds : needed
  · rw [if_pos holds, bind_eq_ok_iff]
    constructor
    · rintro ⟨_, passed, rested⟩
      exact ⟨fun _ => passed, rested⟩
    · rintro ⟨passed, rested⟩
      exact ⟨⟨⟩, passed holds, rested⟩
  · rw [if_neg holds]
    exact ⟨fun rested => ⟨fun held => absurd held holds, rested⟩, And.right⟩

/-- A check that throws, at the end of a computation. -/
theorem refused_eq_ok_iff {refused : Prop} [Decidable refused] {error : ε}
    {otherwise : Except ε β} {result : β} :
    (if refused then throw error else otherwise) = .ok result ↔
      ¬ refused ∧ otherwise = .ok result := by
  by_cases holds : refused <;> simp [holds, throw, throwThe, MonadExceptOf.throw]

/-- An item of a list that is read is read, and its result stands in its place. -/
theorem mapM_getElem? {step : α → Except ε β} {before after : List α} {item : α}
    {results : List β} (read : (before ++ item :: after).mapM step = .ok results) :
    ∃ result, step item = .ok result ∧ results[before.length]? = some result := by
  induction before generalizing results with
  | nil =>
      rw [List.nil_append, List.mapM_cons, bind_eq_ok_iff] at read
      obtain ⟨result, stepped, read⟩ := read
      obtain ⟨others, -, made⟩ := bind_eq_ok_iff.mp read
      obtain rfl := pure_eq_ok_iff.mp made
      exact ⟨result, stepped, rfl⟩
  | cons first rest ih =>
      rw [List.cons_append, List.mapM_cons, bind_eq_ok_iff] at read
      obtain ⟨value, -, read⟩ := read
      obtain ⟨others, further, made⟩ := bind_eq_ok_iff.mp read
      obtain rfl := pure_eq_ok_iff.mp made
      exact ih further

/-- A list is read if each of its items is. -/
theorem mapM_eq_ok {step : α → Except ε β} {items : List α} {results : List β}
    (read : items.mapM step = .ok results) :
    ∀ item ∈ items, ∃ result, step item = .ok result := by
  intro item member
  obtain ⟨before, after, rfl⟩ := List.append_of_mem member
  exact (mapM_getElem? read).imp fun _ => And.left

/-- A check of all items of a list passes if it passes for each of them. -/
theorem forM_eq_ok_iff {ε α : Type} {check : α → Except ε Unit} {items : List α} :
    items.forM check = .ok () ↔ ∀ item ∈ items, check item = .ok () := by
  induction items with
  | nil => simp [List.forM, pure, Except.pure]
  | cons item others ih =>
      rw [List.forM, bind_eq_ok_iff, List.forall_mem_cons]
      constructor
      · rintro ⟨_, first, later⟩
        exact ⟨first, ih.mp later⟩
      · rintro ⟨first, later⟩
        exact ⟨⟨⟩, first, ih.mpr later⟩

theorem forM_eq_error {ε α : Type} {check : α → Except ε Unit} {items : List α} {reason : ε}
    (failed : items.forM check = .error reason) : ∃ item ∈ items, check item = .error reason := by
  induction items with
  | nil => cases failed
  | cons item others ih =>
      rcases bind_eq_error_iff.mp failed with first | ⟨_, -, later⟩
      · exact ⟨item, List.mem_cons_self, first⟩
      · obtain ⟨found, member, same⟩ := ih later
        exact ⟨found, List.mem_cons_of_mem _ member, same⟩

theorem foldlM_ok_invariant {γ : Type _} {step : α → γ → Except ε α} (invariant : α → Prop)
    {items : List γ} {start finish : α}
    (preserved : ∀ state item after, item ∈ items → invariant state →
      step state item = .ok after → invariant after)
    (holds : invariant start) (finished : items.foldlM step start = .ok finish) :
    invariant finish := by
  induction items generalizing start with
  | nil =>
      rw [List.foldlM_nil, pure_eq_ok_iff] at finished
      exact finished ▸ holds
  | cons item rest ih =>
      rw [List.foldlM_cons, bind_eq_ok_iff] at finished
      obtain ⟨next, stepped, finished⟩ := finished
      exact ih (fun state other after member => preserved state other after (by simp [member]))
        (preserved start item next (by simp) holds stepped) finished

end Coffer
