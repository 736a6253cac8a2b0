import Coffer.Proofs.Denial
import Coffer.Proofs.LineTokens
import Coffer.Script.Session

namespace Coffer

/-! # The items of a script

Commands and statements of a script are taken one by one, each with its own text. Blank lines
between them are kept with the statement that follows, and that has no use for them. A command has
one: after a blank line it is no command any more.
-/

namespace Text

variable {text blanks : List Char}

theorem trimmed_blanks_append (blank : ∀ c ∈ blanks, isBlank c = true) :
    trimmed (blanks ++ text) = trimmed text := by
  rw [trimmed, List.dropWhile_append_of_pos blank, trimmed]

theorem trimmed_append_blanks (blank : ∀ c ∈ blanks, isBlank c = true) :
    trimmed (text ++ blanks) = trimmed text := by
  have none : blanks.dropWhile isBlank = [] := List.dropWhile_eq_nil_iff.mpr blank
  rw [trimmed, trimmed, List.dropWhile_append]
  split
  · rename_i covered
    rw [none, List.isEmpty_iff.mp covered]
  · rw [List.reverse_append, List.dropWhile_append_of_pos (by simpa using blank)]

theorem trim_blanks (blank : ∀ c ∈ blanks, isBlank c = true) : trimmed blanks = [] := by
  rw [trimmed, List.dropWhile_eq_nil_iff.mpr blank]
  rfl

end Text

namespace Script

open Language (Token Tokens Whole tokensOf)

/-! ## Items -/

/-- The text of lines, each with its end. -/
def textOf (lines : List String) : String :=
  String.join (lines.map (· ++ "\n"))

def lineTokens (line : String) : Tokens :=
  tokensOf (line ++ "\n")

def IsBlankLine (line : String) : Prop :=
  ∀ c ∈ line.toList, Text.isBlank c = true

inductive Item where
  | command (line : String)
  /-- A statement over one or more lines. -/
  | statement (earlier : List String) (last : String)

namespace Item

def lines : Item → List String
  | .command line => [line]
  | .statement earlier last => earlier ++ [last]

/-- Whether an item stands on lines of its own. No token of a statement goes over the end of a line,
its first line is no command, and a semicolon is the last token of its last line and stands on none
of the lines before. -/
inductive Proper : Item → Prop where
  | command {line : String} (marked : isCommand line = true) : Proper (.command line)
  | statement {earlier : List String} {last : String}
      (unmarked : ∀ line ∈ (earlier ++ [last]).head?, isCommand line = false)
      (clean : ∀ line ∈ earlier ++ [last], (lineTokens line).fault = none)
      (unclosed : ∀ line ∈ earlier, Token.symbol .semicolon ∉ (lineTokens line).tokens)
      (closed : (lineTokens last).tokens.getLast? = some (.symbol .semicolon)) :
      Proper (.statement earlier last)

variable {m : Type → Type} [Monad m]

/-- What an item does on its own: the database after it, and what is written for it, if anything. -/
def perform (host : Host m) (caller : Caller) (database : Database) :
    Item → m (Database × Option String)
  | .command line => do
    match ← ExceptT.run (Command.runLine host database (Text.trim line)) with
    | .ok (after, document) => return (after, document.map Json.toText)
    | .error error => return (database, some (failureJson error).toText)
  | .statement earlier last =>
    let (after, report) := database.execute
      { sql := Text.trim (textOf (earlier ++ [last])), parameters := [], caller }
    return (after, some report.toJson.toText)

/-- What items do one after another. -/
def performAll (host : Host m) (caller : Caller) (database : Database) :
    List Item → m (Database × List String)
  | [] => return (database, [])
  | item :: others => do
    let (next, written) ← item.perform host caller database
    let (after, further) ← performAll host caller next others
    return (after, written.toList ++ further)

end Item

/-- An item with the blank lines before it. -/
structure Spot where
  gap : List String
  item : Item

/-- Items in order, and blank lines behind the last one. -/
structure Layout where
  spots : List Spot
  trailing : List String

namespace Layout

def items (layout : Layout) : List Item :=
  layout.spots.map Spot.item

def lines (layout : Layout) : List String :=
  layout.spots.flatMap (fun spot => spot.gap ++ spot.item.lines) ++ layout.trailing

structure Proper (layout : Layout) : Prop where
  items : ∀ spot ∈ layout.spots, spot.item.Proper
  gaps : ∀ spot ∈ layout.spots, ∀ line ∈ spot.gap, IsBlankLine line
  trailing : ∀ line ∈ layout.trailing, IsBlankLine line

/-- Whether no command stands behind a blank line. -/
def Audible (layout : Layout) : Prop :=
  ∀ spot ∈ layout.spots, ∀ line, spot.item = .command line → spot.gap = []

end Layout

/-! ## Texts of lines -/

variable {lines others gap : List String} {line last : String}

theorem textOf_append : textOf (lines ++ others) = textOf lines ++ textOf others := by
  simp [textOf]

theorem textOf_single : textOf [line] = line ++ "\n" := by
  simp [textOf]

theorem textOf_snoc : textOf (lines ++ [last]) = textOf lines ++ last ++ "\n" := by
  rw [textOf_append, textOf_single, String.append_assoc]

theorem textOf_cons_ne : textOf (line :: lines) ≠ "" := by
  simp [textOf]

/-- Lines without a fault are read one by one. -/
theorem tokensOf_textOf (clean : ∀ line ∈ lines, (lineTokens line).fault = none) :
    tokensOf (textOf lines) = ⟨lines.flatMap fun line => (lineTokens line).tokens, none⟩ := by
  induction lines with
  | nil => rfl
  | cons line others ih =>
      obtain ⟨first, rest⟩ := List.forall_mem_cons.mp clean
      have whole : Whole (line ++ "\n").toList := by
        rw [String.toList_append]
        exact Language.whole_line
      rw [← List.singleton_append, textOf_append, textOf_single,
        Language.tokensOf_append whole first, ih rest]
      rfl

theorem lineTokens_blank (blank : IsBlankLine line) : lineTokens line = ⟨[], none⟩ := by
  refine Language.tokensOf_blanks fun c member => ?_
  rw [String.toList_append, List.mem_append] at member
  rcases member with inside | ended
  · exact blank c inside
  · obtain rfl := List.mem_singleton.mp ended
    decide

theorem textOf_blank (blank : ∀ line ∈ gap, IsBlankLine line) :
    ∀ c ∈ (textOf gap).toList, Text.isBlank c = true := by
  induction gap with
  | nil => simp [textOf]
  | cons line others ih =>
      obtain ⟨first, rest⟩ := List.forall_mem_cons.mp blank
      rw [← List.singleton_append, textOf_append, textOf_single, String.toList_append,
        String.toList_append]
      refine List.forall_mem_append.mpr ⟨List.forall_mem_append.mpr ⟨first, ?_⟩, ih rest⟩
      exact List.forall_mem_singleton.mpr (by decide)

/-- The blank lines before a statement are no part of the text that is executed. -/
theorem trim_textOf (blank : ∀ line ∈ gap, IsBlankLine line) :
    Text.trim (textOf (gap ++ lines)) = Text.trim (textOf lines) := by
  rw [Text.trim, textOf_append, String.toList_append,
    Text.trimmed_blanks_append (textOf_blank blank), Text.trim]

theorem trim_textOf_blank (blank : ∀ line ∈ gap, IsBlankLine line) :
    Text.trim (textOf gap) = "" := by
  rw [Text.trim, Text.trim_blanks (textOf_blank blank)]

theorem trim_textOf_single : Text.trim (textOf [line]) = Text.trim line := by
  have feed : ∀ c ∈ "\n".toList, Text.isBlank c = true :=
    List.forall_mem_singleton.mpr (by decide)
  rw [Text.trim, textOf_single, String.toList_append, Text.trimmed_append_blanks feed, Text.trim]

theorem isCommand_blank (blank : IsBlankLine line) : isCommand line = false := by
  rw [isCommand, Text.trim, Text.trim_blanks blank]
  rfl

/-! ## Complete statements -/

/-- Whether a line goes on with a statement without ending it. -/
structure Continues (line : String) : Prop where
  clean : (lineTokens line).fault = none
  unclosed : Token.symbol .semicolon ∉ (lineTokens line).tokens

theorem Continues.of_blank (blank : IsBlankLine line) : Continues line := by
  constructor <;> simp [lineTokens_blank blank]

theorem isComplete_continues (continues : ∀ line ∈ lines, Continues line) :
    isComplete (textOf lines) = false := by
  rw [isComplete, tokensOf_textOf fun line member => (continues line member).clean]
  refine beq_eq_false_iff_ne.mpr fun ended => ?_
  obtain ⟨line, listed, member⟩ := List.mem_flatMap.mp (List.mem_of_getLast? ended)
  exact (continues line listed).unclosed member

theorem isComplete_closed (continues : ∀ line ∈ lines, Continues line)
    (clean : (lineTokens last).fault = none)
    (closed : (lineTokens last).tokens.getLast? = some (.symbol .semicolon)) :
    isComplete (textOf (lines ++ [last])) = true := by
  have all : ∀ line ∈ lines ++ [last], (lineTokens line).fault = none :=
    List.forall_mem_append.mpr ⟨fun line member => (continues line member).clean,
      List.forall_mem_singleton.mpr clean⟩
  rw [isComplete, tokensOf_textOf all]
  simp [List.getLast?_append, closed]

/-! ## Sessions -/

namespace Session

variable {m : Type → Type} [Monad m] {host : Host m}
variable {session : Session} {database : Database} {caller : Caller} {item : Item}

/-- A session in the midst of a statement, with the lines that it has taken in for it. -/
def holding (database : Database) (caller : Caller) (lines : List String) : Session :=
  { database, caller, pending := textOf lines }

@[simp]
theorem start_database : (start database caller).database = database := rfl

/-- Only at the start of an item is a line taken for a command. -/
theorem feed_unmarked (host : Host m) (unmarked : lines = [] → isCommand line = false) :
    (holding database caller lines).feed host line =
      pure ((holding database caller lines).extend line) := by
  rw [feed, if_neg]
  rw [Bool.and_eq_true]
  rintro ⟨empty, marked⟩
  cases lines with
  | nil => exact absurd marked (by simp [unmarked rfl])
  | cons first rest => exact textOf_cons_ne (String.isEmpty_iff.mp empty)

theorem extend_open (incomplete : isComplete (textOf (lines ++ [line])) = false) :
    (holding database caller lines).extend line =
      (holding database caller (lines ++ [line]), none) := by
  rw [textOf_snoc] at incomplete
  simp [extend, holding, incomplete, textOf_snoc]

/-- What a session does with the lines of a statement when they are complete. -/
def executed (database : Database) (caller : Caller) (lines : List String) :
    Session × Option String :=
  let (after, report) := database.execute
    { sql := Text.trim (textOf lines), parameters := [], caller }
  (start after caller, some report.toJson.toText)

theorem extend_closed (complete : isComplete (textOf (lines ++ [line])) = true) :
    (holding database caller lines).extend line = executed database caller (lines ++ [line]) := by
  rw [executed, textOf_snoc]
  rw [textOf_snoc] at complete
  simp [extend, holding, complete, submit, start]

theorem conclude_holding (nonblank : Text.trim (textOf lines) ≠ "") :
    (holding database caller lines).conclude = executed database caller lines := by
  have kept : (Text.trim (textOf lines)).isEmpty = false :=
    Bool.eq_false_iff.mpr fun empty => nonblank (String.isEmpty_iff.mp empty)
  simp [conclude, holding, kept, submit, executed, start]

theorem conclude_blank (blank : ∀ line ∈ lines, IsBlankLine line) :
    (holding database caller lines).conclude = (holding database caller lines, none) := by
  have none : (Text.trim (textOf lines)).isEmpty = true :=
    String.isEmpty_iff.mpr (trim_textOf_blank blank)
  simp [conclude, holding, none]

variable [LawfulMonad m]

theorem feedLines_append (first second : List String) :
    session.feedLines host (first ++ second) = do
      let (next, written) ← session.feedLines host first
      let (after, further) ← next.feedLines host second
      return (after, written ++ further) := by
  induction first generalizing session with
  | nil => simp [feedLines]
  | cons line others ih => simp [feedLines, ih]

theorem feedLines_single :
    session.feedLines host [line] = do
      let (after, written) ← session.feed host line
      return (after, written.toList) := by
  simp [feedLines]

theorem feedLines_continues (host : Host m) (seen : ∀ line ∈ lines, Continues line)
    (continues : ∀ line ∈ others, Continues line)
    (unmarked : lines = [] → ∀ line ∈ others.head?, isCommand line = false) :
    (holding database caller lines).feedLines host others =
      pure (holding database caller (lines ++ others), []) := by
  induction others generalizing lines with
  | nil => simp [feedLines]
  | cons line rest ih =>
      obtain ⟨first, later⟩ := List.forall_mem_cons.mp continues
      have extended : ∀ other ∈ lines ++ [line], Continues other :=
        List.forall_mem_append.mpr ⟨seen, List.forall_mem_singleton.mpr first⟩
      rw [feedLines, feed_unmarked host fun none => unmarked none line rfl,
        extend_open (isComplete_continues extended), pure_bind]
      dsimp only
      rw [ih extended later (by simp)]
      simp

theorem feedLines_start (host : Host m) (continues : ∀ line ∈ lines, Continues line)
    (unmarked : ∀ line ∈ lines.head?, isCommand line = false) :
    (start database caller).feedLines host lines = pure (holding database caller lines, []) := by
  have none : ∀ line ∈ ([] : List String), Continues line := by simp
  exact feedLines_continues host none continues fun _ => unmarked

theorem feedLines_blank (host : Host m) (blank : ∀ line ∈ gap, IsBlankLine line) :
    (start database caller).feedLines host gap = pure (holding database caller gap, []) :=
  feedLines_start host (fun line member => .of_blank (blank line member))
    fun line head => isCommand_blank (blank line (List.mem_of_head? head))

/-- A statement is executed at the end of its last line, without the blank lines before it. -/
theorem feedLines_statement (host : Host m) (blank : ∀ line ∈ gap, IsBlankLine line)
    (proper : (Item.statement lines last).Proper) :
    (start database caller).feedLines host (gap ++ (lines ++ [last])) =
      let (after, written) := executed database caller (lines ++ [last])
      pure (after, written.toList) := by
  obtain _ | ⟨unmarked, clean, unclosed, closed⟩ := proper
  have continues : ∀ line ∈ gap ++ lines, Continues line :=
    List.forall_mem_append.mpr ⟨fun line member => .of_blank (blank line member),
      fun line member => ⟨clean line (List.mem_append_left _ member), unclosed line member⟩⟩
  have first : ∀ line ∈ (gap ++ lines ++ [last]).head?, isCommand line = false := by
    cases gap with
    | nil => exact unmarked
    | cons line rest =>
        rintro _ ⟨⟩
        exact isCommand_blank (blank line List.mem_cons_self)
  have complete : isComplete (textOf (gap ++ lines ++ [last])) = true :=
    isComplete_closed continues (clean last (by simp)) closed
  have gathered : (start database caller).feedLines host (gap ++ lines) =
      pure (holding database caller (gap ++ lines), []) := by
    refine feedLines_start host continues fun line head => first line ?_
    rw [List.head?_append, Option.mem_def.mp head]
    rfl
  have fed : (holding database caller (gap ++ lines)).feed host last =
      pure (executed database caller (gap ++ lines ++ [last])) := by
    rw [feed_unmarked host, extend_closed complete]
    intro none
    rw [none] at first
    exact first last rfl
  have own : executed database caller (gap ++ lines ++ [last]) =
      executed database caller (lines ++ [last]) := by
    rw [executed, List.append_assoc, trim_textOf blank, executed]
  rw [← List.append_assoc, feedLines_append, gathered, pure_bind]
  dsimp only
  rw [feedLines_single, fed, own]
  simp

/-- An item is taken on its own: a statement with the blank lines before it, and a command that has
none. -/
theorem feedLines_item (host : Host m) (proper : item.Proper)
    (blank : ∀ line ∈ gap, IsBlankLine line)
    (audible : ∀ line, item = .command line → gap = []) :
    (start database caller).feedLines host (gap ++ item.lines) = do
      let (after, written) ← item.perform host caller database
      return (start after caller, written.toList) := by
  cases item with
  | command line =>
      obtain ⟨marked⟩ | _ := proper
      have heard : (start database caller).feed host line =
          (start database caller).obey host (Text.trim line) := by
        rw [feed, marked]
        rfl
      rw [audible line rfl, List.nil_append, Item.lines, feedLines_single, heard, obey, Item.perform,
        bind_assoc, bind_assoc]
      refine bind_congr fun result => ?_
      cases result <;> simp [start]
  | statement earlier last =>
      rw [Item.lines, feedLines_statement host blank proper, Item.perform, executed]
      simp

theorem feedLines_spots (host : Host m) {spots : List Spot}
    (proper : ∀ spot ∈ spots, spot.item.Proper)
    (blank : ∀ spot ∈ spots, ∀ line ∈ spot.gap, IsBlankLine line)
    (audible : ∀ spot ∈ spots, ∀ line, spot.item = .command line → spot.gap = []) :
    (start database caller).feedLines host
        (spots.flatMap fun spot => spot.gap ++ spot.item.lines) = do
      let (after, written) ← Item.performAll host caller database (spots.map Spot.item)
      return (start after caller, written) := by
  induction spots generalizing database with
  | nil => simp [feedLines, Item.performAll]
  | cons spot others ih =>
      obtain ⟨first, later⟩ := List.forall_mem_cons.mp proper
      obtain ⟨firstBlank, laterBlank⟩ := List.forall_mem_cons.mp blank
      obtain ⟨firstAudible, laterAudible⟩ := List.forall_mem_cons.mp audible
      rw [List.flatMap_cons, feedLines_append, feedLines_item host first firstBlank firstAudible]
      simp [ih later laterBlank laterAudible, Item.performAll]

theorem read_append (first second : List String) :
    session.read host (first ++ second) = do
      let (next, written) ← session.feedLines host first
      let (after, further) ← next.read host second
      return (after, written ++ further) := by
  simp [read, feedLines_append]

theorem read_blank (host : Host m) (blank : ∀ line ∈ gap, IsBlankLine line) :
    (start database caller).read host gap = pure (holding database caller gap, []) := by
  rw [read, feedLines_blank host blank, pure_bind]
  simp [conclude_blank blank]

/-- After a blank line a command is text of a statement, which ends with the script if not before. -/
theorem read_unheard (host : Host m) (blank : ∀ line ∈ gap, IsBlankLine line) (behind : gap ≠ [])
    (marked : isCommand line = true) :
    (start database caller).read host (gap ++ [line]) =
      let (after, written) := executed database caller [line]
      pure (after, written.toList) := by
  have own : executed database caller (gap ++ [line]) = executed database caller [line] := by
    rw [executed, trim_textOf blank, executed]
  have fed : (holding database caller gap).feedLines host [line] =
      let (after, written) := (holding database caller gap).extend line
      pure (after, written.toList) := by
    rw [feedLines_single, feed_unmarked host fun none => absurd none behind, pure_bind]
  rw [read, feedLines_append, feedLines_blank host blank, pure_bind]
  dsimp only
  rw [fed]
  cases complete : isComplete (textOf (gap ++ [line])) with
  | true =>
      have idle {after : Database} : (start after caller).conclude = (start after caller, none) := rfl
      rw [extend_closed complete, own, executed]
      simp [idle]
  | false =>
      have nonblank : Text.trim (textOf (gap ++ [line])) ≠ "" := by
        rw [trim_textOf blank, trim_textOf_single]
        intro none
        rw [isCommand, none] at marked
        cases marked
      rw [extend_open complete]
      simp [conclude_holding nonblank, own]

end Session

/-! ## Scripts -/

/-- A statement text without a type fails, and leaves nothing behind but an entry in the log. -/
theorem execute_unclassified {sql : String} {reason : Error}
    (untold : Language.classify sql = .error reason) :
    ∃ report : Report, report.success = false ∧
      ∀ (database : Database) (parameters : List Value) (caller : Caller),
        database.execute { sql, parameters, caller } =
          ({ database with
            log := Database.logged database.settings.logCapacity database.log (report.entry sql) },
            report) := by
  cases read : Language.parse sql with
  | ok parsed =>
      have told := Language.classify_of_parse read
      rw [untold] at told
      cases told
  | error fault =>
      refine ⟨⟨none, .error fault, []⟩, rfl, fun database parameters caller => ?_⟩
      have refused : database.parse { sql, parameters, caller } = .error fault := by
        rw [Database.parse]
        simp only [read, untold]
        rfl
      simp [Database.execute, refused, untold, Except.toOption]

theorem classify_command {line : String} (marked : isCommand line = true) :
    ∃ reason, Language.classify (Text.trim line) = .error reason := by
  obtain ⟨rest, form⟩ := List.head?_eq_some_iff.mp (beq_iff_eq.mp marked)
  have symbol : ∃ mark after, Language.symbol? ('!' :: rest) = some (mark, after) := by
    by_cases unequal : ∃ more, rest = '=' :: more
    · obtain ⟨more, rfl⟩ := unequal
      exact ⟨_, _, rfl⟩
    · refine ⟨.exclamation, rest, ?_⟩
      rw [Language.symbol?]
      exact fun more same => unequal ⟨more, same⟩
  obtain ⟨mark, after, found⟩ := symbol
  have read : Language.nextLexeme ('!' :: rest) = .found (.symbol mark) after := by
    rw [Language.nextLexeme, Language.afterGap_of_not_isBlank (by decide) (by decide)]
    exact Language.lexemeAt_symbol found (by decide) (by decide)
  exact ⟨_, by rw [Language.classify, form, read]; rfl⟩

/-- What a script leaves and writes. -/
def outcome (result : Session × List String) : Database × List String :=
  (result.1.database, result.2)

section Layouts

variable {m : Type → Type} [Monad m] [LawfulMonad m]

theorem read_lines (host : Host m) {database : Database} {caller : Caller} {layout : Layout}
    (proper : layout.Proper) (audible : layout.Audible) :
    outcome <$> (Session.start database caller).read host layout.lines =
      Item.performAll host caller database layout.items := by
  rw [Layout.lines, Session.read_append,
    Session.feedLines_spots host proper.items proper.gaps audible]
  simp [Session.read_blank host proper.trailing, Session.holding, outcome, Layout.items]

/-- The layout without its blank lines. -/
def Layout.packed (layout : Layout) : Layout :=
  { spots := layout.items.map fun item => { gap := [], item }, trailing := [] }

theorem Layout.packed_items {layout : Layout} : layout.packed.items = layout.items := by
  simp [packed, items]

theorem Layout.packed_lines {layout : Layout} :
    layout.packed.lines = layout.items.flatMap Item.lines := by
  simp [packed, lines, List.flatMap_map]

theorem Layout.Proper.packed {layout : Layout} (proper : layout.Proper) :
    layout.packed.Proper where
  items := by simpa [Layout.packed, Layout.items] using proper.items
  gaps := by simp [Layout.packed]
  trailing := nofun

theorem Layout.packed_audible {layout : Layout} : layout.packed.Audible := by
  simp [Audible, packed]

/-- A script in which no command stands behind a blank line does what its items do one by one, with
its blank lines or without them. A command behind a blank line is not obeyed: at the end of the
script it is reported as a statement that failed, and only the log tells of it. -/
theorem script_performs_items (host : Host m) (database : Database) (caller : Caller)
    (layout : Layout) (proper : layout.Proper) (audible : layout.Audible) :
    (∀ script, linesOf script = layout.lines ∨
        linesOf script = layout.items.flatMap Item.lines →
      outcome <$> (Session.start database caller).read host (linesOf script) =
        Item.performAll host caller database layout.items) ∧
    ∀ line, layout.trailing ≠ [] → isCommand line = true →
      ∃ report : Report, report.success = false ∧
        ∀ script, linesOf script = layout.lines ++ [line] →
          outcome <$> (Session.start database caller).read host (linesOf script) = do
            let (next, written) ← Item.performAll host caller database layout.items
            let log := Database.logged next.settings.logCapacity next.log
              (report.entry (Text.trim line))
            return ({ next with log }, written ++ [report.toJson.toText]) := by
  constructor
  · rintro script (form | form)
    · rw [form, read_lines host proper audible]
    · rw [form, ← Layout.packed_lines, read_lines host proper.packed Layout.packed_audible,
        Layout.packed_items]
  · intro line behind marked
    obtain ⟨reason, untold⟩ := classify_command marked
    obtain ⟨report, failed, executes⟩ := execute_unclassified untold
    refine ⟨report, failed, fun script form => ?_⟩
    have ends (next : Database) :
        (Session.start next caller).read host (layout.trailing ++ [line]) =
          let log := Database.logged next.settings.logCapacity next.log
            (report.entry (Text.trim line))
          pure (Session.start { next with log } caller, [report.toJson.toText]) := by
      rw [Session.read_unheard host proper.trailing behind marked, Session.executed,
        trim_textOf_single, executes]
      rfl
    rw [form, Layout.lines, List.append_assoc, Session.read_append,
      Session.feedLines_spots host proper.items proper.gaps audible]
    simp [ends, outcome, Layout.items]

/-- A table is made and shown; then a blank line keeps the same command from being heard. -/
theorem script_performs_items_until_unheard :
    let layout : Layout :=
      { spots := [⟨["", "  "], .statement ["CREATE TABLE t (", "  a TEXT -- a; b"] ");"⟩,
          ⟨[], .command "!tables"⟩, ⟨[""], .statement [] "INSERT INTO t (a) VALUES ('x;y');"⟩]
        trailing := [""] }
    let host : Host (StateM Nat) :=
      { read := fun _ => pure none, write := fun _ _ => pure (), now := pure ⟨0, 0⟩
        random := fun count drawn => (List.replicate count 0, drawn + count) }
    let script := "\n  \nCREATE TABLE t (\n  a TEXT -- a; b\n);\n!tables\n" ++
      "\nINSERT INTO t (a) VALUES ('x;y');\n\n"
    layout.Proper ∧ layout.Audible ∧ linesOf script = layout.lines ∧
      layout.trailing ≠ [] ∧ isCommand "!tables" = true ∧
      linesOf (script ++ "!tables\n") = layout.lines ++ ["!tables"] ∧
      outcome <$> (Session.start .fresh .local).read host (linesOf script) =
        Item.performAll host .local .fresh layout.items ∧
      ∃ report : Report, report.success = false ∧
        outcome <$> (Session.start .fresh .local).read host (linesOf (script ++ "!tables\n")) = do
          let (next, written) ← Item.performAll host .local .fresh layout.items
          let log := Database.logged next.settings.logCapacity next.log
            (report.entry (Text.trim "!tables"))
          return ({ next with log }, written ++ [report.toJson.toText]) := by
  intro layout host script
  have proper : layout.Proper := by
    refine ⟨?_, ?_, ?_⟩
    · have table : (Item.statement ["CREATE TABLE t (", "  a TEXT -- a; b"] ");").Proper :=
        .statement (by decide +kernel) (by decide +kernel) (by decide +kernel) (by decide +kernel)
      have shown : (Item.command "!tables").Proper := .command (by decide +kernel)
      have row : (Item.statement [] "INSERT INTO t (a) VALUES ('x;y');").Proper :=
        .statement (by decide +kernel) (by decide +kernel) (by decide +kernel) (by decide +kernel)
      simp only [layout, List.forall_mem_cons, table, shown, row, true_and]
      nofun
    · simp [layout, IsBlankLine]
      decide
    · simp [layout, IsBlankLine]
  have audible : layout.Audible := by simp [layout, Layout.Audible]
  have split : linesOf script = layout.lines := by decide +kernel
  have longer : linesOf (script ++ "!tables\n") = layout.lines ++ ["!tables"] := by decide +kernel
  have behind : layout.trailing ≠ [] := by simp [layout]
  have marked : isCommand "!tables" = true := by decide +kernel
  obtain ⟨performs, unheard⟩ := script_performs_items host .fresh .local layout proper audible
  obtain ⟨report, failed, executes⟩ := unheard "!tables" behind marked
  refine ⟨proper, audible, split, behind, marked, longer, performs script (.inl split), report,
    failed, executes _ longer⟩

end Layouts

end Script

end Coffer
