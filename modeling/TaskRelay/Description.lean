import TaskRelay.Envelope

/-!
# Descriptions

What the inside of things looks like when it is shown for debugging: the name of the constructor
with what it holds, texts in quotes, absent things as `None`.
-/

namespace TaskRelay

namespace Description

/-- A name with labelled parts. -/
def labelled (name : String) (parts : List (String × String)) : String :=
  name ++ " \x7b " ++ ", ".intercalate (parts.map fun p => p.1 ++ ": " ++ p.2) ++ " \x7d"

/-- A name with labelled parts, of which some are not shown. -/
def abridged (name : String) (parts : List (String × String)) : String :=
  name ++ " \x7b " ++ String.join (parts.map fun p => p.1 ++ ": " ++ p.2 ++ ", ") ++ ".. \x7d"

def optional : Option String → String
  | none => "None"
  | some s => "Some(" ++ s ++ ")"

def bool (b : Bool) : String := if b then "true" else "false"

end Description

mutual

/-- The description of a tree. -/
def Json.debugText : Json → String
  | .null => "Null"
  | .bool b => "Bool(" ++ Description.bool b ++ ")"
  | .number n => "Number(" ++ Json.numberText n ++ ")"
  | .string s => "String(" ++ Quoted.text s ++ ")"
  | .array items => "Array [" ++ ", ".intercalate (Json.debugItems items) ++ "]"
  | .object members => "Object \x7b" ++ ", ".intercalate (Json.debugMembers members) ++ "\x7d"

def Json.debugItems : List Json → List String
  | [] => []
  | item :: rest => item.debugText :: Json.debugItems rest

def Json.debugMembers : List (String × Json) → List String
  | [] => []
  | (key, value) :: rest => (Quoted.text key ++ ": " ++ value.debugText) :: Json.debugMembers rest

end

/-- The description of an envelope. -/
def Envelope.debugText : Envelope → String
  | .success result => Description.labelled "Success" [("result", result.tree.debugText)]
  | .failure kind message trace =>
    Description.labelled "Failure" [("class", Quoted.text kind), ("message", Quoted.text message),
      ("backtrace", Quoted.list trace)]

end TaskRelay
