namespace Coffer.Text

/-! # Single characters in messages -/

/-- The lower case hexadecimal digits of a code point. -/
def hexCode (code : Nat) : String :=
  String.ofList (Nat.toDigits 16 code)

/-- Whether a character up to U+00FF shows nothing of its own. -/
def isInvisible (c : Char) : Bool :=
  let code := c.toNat
  decide (code < 32) || (decide (127 ≤ code) && decide (code ≤ 160)) || code == 173

/-- A character up to U+00FF between single quotes, escaped where it would be invisible
or end the quotes. -/
def quotedCharacter (c : Char) : String :=
  let shown :=
    if c = '\x00' then "\\0"
    else if c = '\t' then "\\t"
    else if c = '\n' then "\\n"
    else if c = '\r' then "\\r"
    else if c = '\\' then "\\\\"
    else if c = '\x27' then "\\'"
    else if isInvisible c then "\\u\x7b" ++ hexCode c.toNat ++ "\x7d"
    else String.singleton c
  "'" ++ shown ++ "'"

end Coffer.Text
