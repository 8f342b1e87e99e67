/-! # Log

What the program tells about its work while it goes on. A note is one message. Its text may have
several lines, of which only the first carries the time and the level. Names of files and tokens
come from outside, so characters that could steer a terminal are not printed as they are.
-/

namespace TokenLayout

inductive Level where
  | debug
  | info
  | warning
  deriving DecidableEq

/-- The written name of a level, as wide as the widest one. -/
def Level.label : Level → String
  | debug => "DEBUG"
  | info => " INFO"
  | warning => " WARN"

structure Note where
  level : Level
  text : String
  deriving DecidableEq

namespace Note

/-- Is the note shown? Notes that help to look for a mistake are shown only on request. -/
def isShown (verbose : Bool) (note : Note) : Bool :=
  verbose || note.level != .debug

/-- The character as the log shows it: those that could steer a terminal as an escape with their
number in hexadecimal digits. -/
def shownChar (c : Char) : String :=
  let digits := String.ofList (Nat.toDigits 16 c.toNat)
  if c = '\x07' || c = '\x08' || c = '\x0c' then "\\x0" ++ digits
  else if c = '\x1b' || c = '\x7f' then "\\x" ++ digits
  else if 0x80 ≤ c.toNat && c.toNat ≤ 0x9F then "\\u\x7b" ++ digits ++ "\x7d"
  else c.toString

/-- The note as it is printed at a time. -/
def render (time : String) (note : Note) : String :=
  time ++ " " ++ note.level.label ++ " " ++ String.join (note.text.toList.map shownChar) ++ "\n"

end Note

end TokenLayout
