import DrillPost.Json.Printer

/-!
# Log records

A record has a level, a source and a message, and is written as a plain line or as a JSON object.

* `Level`, `Level.covers`: how much a level lets through;
* `Source`: the parts of the program that write records;
* `Record.plain`, `Record.json`: the two forms of a record.
-/

namespace DrillPost.Log

inductive Level
  | error
  | warn
  | info
  | debug
  | trace
  deriving DecidableEq, Repr

namespace Level

def rank : Level → Nat
  | error => 1
  | warn => 2
  | info => 3
  | debug => 4
  | trace => 5

def name : Level → String
  | error => "ERROR"
  | warn => "WARN"
  | info => "INFO"
  | debug => "DEBUG"
  | trace => "TRACE"

def covers (limit level : Level) : Bool := level.rank ≤ limit.rank

end Level

inductive Source
  | program
  | settings
  | converter
  | transpiler
  deriving DecidableEq, Repr

def Source.name : Source → String
  | program => "e2g"
  | settings => "e2g_settings::config"
  | converter => "e2g_camtools::converter"
  | transpiler => "e2g_camtools::excellon::transpiler"

structure Record where
  level : Level
  source : Source
  message : String
  deriving DecidableEq, Repr

/-- A character as it stands in a plain line: characters that control a terminal are spelled out. -/
def visible (c : Char) : Text :=
  let n := c.toNat
  if n = 0x1B then "\\x1b".toList
  else if n = 0x07 then "\\x07".toList
  else if n = 0x08 then "\\x08".toList
  else if n = 0x0C then "\\x0c".toList
  else if n = 0x7F then "\\x7f".toList
  else if 0x80 ≤ n && n ≤ 0x9F then
    "\\u\x7b".toList ++ [Json.hexDigit (n / 16), Json.hexDigit (n % 16)] ++ "\x7d".toList
  else [c]

namespace Record

/-- The record as a line: the level in five columns, the source if it is wanted, the message. -/
def plain (withSource : Bool) (r : Record) : String :=
  let level := r.level.name
  let source := if withSource then r.source.name ++ ": " else ""
  let message := String.ofList (r.message.toList.flatMap visible)
  String.ofList (List.replicate (5 - level.length) ' ') ++ level ++ " " ++ source ++ message

def json (r : Record) : String :=
  String.ofList <| Json.compactObject
    [("level", Json.quoted r.level.name.toList),
      ("fields", Json.compactObject [("message", Json.quoted r.message.toList)]),
      ("target", Json.quoted r.source.name.toList)]

end Record

end DrillPost.Log
