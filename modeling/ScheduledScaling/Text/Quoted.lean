import ScheduledScaling.Text.Unprintable
/-!
Quoted texts in messages: double quotes around the text, and escapes for quotes, backslashes and
whatever would not show as a character of its own.
-/
namespace ScheduledScaling.Text

/-- The hexadecimal digits of a number. -/
def hexText (n : Nat) : String := String.ofList (Nat.toDigits 16 n)

/-- A character inside a quoted text. -/
def quotedChar (c : Char) : String :=
  if c = '"' then "\\\""
  else if c = '\\' then "\\\\"
  else if c = '\n' then "\\n"
  else if c = '\r' then "\\r"
  else if c = '\t' then "\\t"
  else if c = '\x00' then "\\0"
  else if 32 ≤ c.toNat && c.toNat < 127 then c.toString
  else if c.toNat < 128 || isShownByNumber c then "\\u\x7b" ++ hexText c.toNat ++ "\x7d"
  else c.toString

def quoted (s : String) : String :=
  "\"" ++ String.join (s.toList.map quotedChar) ++ "\""

end ScheduledScaling.Text
