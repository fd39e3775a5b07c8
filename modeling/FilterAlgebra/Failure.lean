import FilterAlgebra.Json.Fault
import FilterAlgebra.Json.Typed

namespace FilterAlgebra

/-- Why a filter was not accepted. -/
inductive Failure where
  | unknownOperator (spelling : String)
  | tooDeep (depth limit : Nat)
  | unreadable (fault : Json.Fault)
  /-- A moment had to be written whose year has no four digits. -/
  | inexpressible
deriving DecidableEq, Repr

inductive FileFault where
  | missing
  | directory
  | nameTooLong
  /-- No file has a name with a zero character in it. -/
  | noName
  | notText
  | other (reason : String)
deriving DecidableEq, Repr

def FileFault.message : FileFault → String
  | missing => "No such file or directory (os error 2)"
  | directory => "Is a directory (os error 21)"
  | nameTooLong => "File name too long (os error 36)"
  | noName => "file name contained an unexpected NUL byte"
  | notText => "stream did not contain valid UTF-8"
  | other reason => reason

inductive ConfigFailure where
  | unreadable (path : String) (fault : FileFault)
  | invalid
deriving DecidableEq, Repr

def ConfigFailure.message : ConfigFailure → String
  | unreadable path fault => "failed to read filter config '" ++ path ++ "': " ++ fault.message
  | invalid => "invalid filter config"

inductive FilterKind where
  | invalidOperator | tooDeep | malformed
deriving DecidableEq, Repr

inductive Kind where
  | filter (k : FilterKind)
  | config
deriving DecidableEq, Repr

def Json.Fault.message : Json.Fault → String
  | .truncated => "unexpected end of text"
  | .malformed => "not a JSON text"
  | .mismatch m => m.message

def Failure.message : Failure → String
  | unknownOperator s => "'" ++ s ++ "' is not a valid comparison operator"
  | tooDeep depth limit =>
    "filter nesting depth " ++ toString depth ++ " exceeds the configured limit of " ++
      toString limit
  | unreadable f => "malformed filter wire data: " ++ f.message
  | inexpressible => "a date lies outside the years that can be written"

structure Report where
  kind : Kind
  message : String
deriving DecidableEq, Repr

namespace FilterKind

def name : FilterKind → String
  | invalidOperator => "InvalidOperator"
  | tooDeep => "TooDeep"
  | malformed => "Malformed"

def choice : Json.Choice FilterKind :=
  [invalidOperator, tooDeep, malformed].map fun k => (k.name, .bare k)

end FilterKind

namespace Kind

def toJson : Kind → Json
  | filter k => .object [("Filter", .text k.name)]
  | config => .text "Config"

def reader (room : Nat) : Json.Reader Kind :=
  Json.Choice.reader room
    [("Filter", .wrapping ((FilterKind.choice.reader (room - 1)).map filter)),
      ("Config", .bare config)]

end Kind

namespace Report

def toJson (r : Report) : Json := .object [("kind", r.kind.toJson), ("message", .text r.message)]

structure Partial where
  kind : Option Kind
  message : Option String

def record (room : Nat) : Json.Record Partial Report where
  name := "Error"
  fields := [
    .of "kind" (Kind.reader room) fun kind p => { p with kind := some kind },
    .of "message" (.text .text) fun message p => { p with message := some message }]
  blank := ⟨none, none⟩
  finish p :=
    match p.kind, p.message with
    | none, _ => .error "kind"
    | _, none => .error "message"
    | some kind, some message => .ok ⟨kind, message⟩

def reader (room : Nat) : Json.Reader Report := (record (room - 1)).reader room

def read (s : String) : Except Json.Fault Report := (reader Json.nestingLimit).readAll s

def text (r : Report) : String := r.toJson.compact

end Report

/-- The report of a failure, if it is one that a caller can mend. -/
def Failure.report? (f : Failure) : Option Report :=
  match f with
  | unknownOperator _ => some ⟨.filter .invalidOperator, f.message⟩
  | tooDeep _ _ => some ⟨.filter .tooDeep, f.message⟩
  | unreadable _ => some ⟨.filter .malformed, f.message⟩
  | inexpressible => none

def ConfigFailure.report (f : ConfigFailure) : Report := ⟨.config, f.message⟩

end FilterAlgebra
