import VirtineCleaning.Config.Basic
import VirtineCleaning.Config.Token
import VirtineCleaning.Json

/-!
# Configuration documents

A document gives values to fields of a configuration: as an object, whose fields come in any order, each at most once;
or as an array, whose values belong to the fields in their own order. Fields that are not given keep their defaults.
-/

namespace VirtineCleaning.Config

/-- The names of the fields, in their order. -/
def fieldNames : List String := ["batch_factor", "notification_capacity", "worker_thread_name", "memory_size"]

/-- A configuration as it is written: every field, in order. -/
def toJson (c : Config) : Json :=
  .object
    [("batch_factor", .number c.batchFactor.toNat), ("notification_capacity", .number c.notificationCapacity.toNat),
      ("worker_thread_name", .text c.workerThreadName), ("memory_size", .number c.memorySize.toNat)]

/-- The number that a token gives, if a word can hold it. -/
def wordOf? : Token → Option Word
  | .number n => if n < UInt64.size then some (UInt64.ofNat n) else none
  | _ => none

/-- The text that a token gives. -/
def textOf? : Token → Option String
  | .text s => some s
  | _ => none

/-- The configuration with one field replaced; `none` for a name that is no field or a value of the wrong kind. -/
def setField (c : Config) : String × Token → Option Config
  | ("batch_factor", value) => (wordOf? value).map fun w => { c with batchFactor := w }
  | ("notification_capacity", value) => (wordOf? value).map fun w => { c with notificationCapacity := w }
  | ("worker_thread_name", value) => (textOf? value).map fun s => { c with workerThreadName := s }
  | ("memory_size", value) => (wordOf? value).map fun w => { c with memorySize := w }
  | _ => none

/-- The fields of an object that has at least one, from after its opening brace on. -/
def members : List Token → Option (List (String × Token))
  | [.text name, .mark ':', value, .mark '\x7d'] => some [(name, value)]
  | .text name :: .mark ':' :: value :: .mark ',' :: rest => (members rest).map ((name, value) :: ·)
  | _ => none

/-- The values of an array that has at least one, from after its opening bracket on. -/
def elements : List Token → Option (List Token)
  | [value, .mark ']'] => some [value]
  | value :: .mark ',' :: rest => (elements rest).map (value :: ·)
  | _ => none

/-- What a document assigns to the fields. -/
def assignments? : List Token → Option (List (String × Token))
  | [.mark '\x7b', .mark '\x7d'] => some []
  | .mark '\x7b' :: rest => members rest
  | [.mark '[', .mark ']'] => some []
  | .mark '[' :: rest =>
    (elements rest).bind fun values =>
      if values.length ≤ fieldNames.length then some (fieldNames.zip values) else none
  | _ => none

/-- The configuration that a document gives; no field may be given twice. -/
def ofDocument? (document : String) : Option Config :=
  ((Token.scan document).bind assignments?).bind fun assignments =>
    if (assignments.map (·.1)).Nodup then assignments.foldlM setField {} else none

/-- Why no configuration was loaded. -/
inductive LoadError where
  /-- The document is not there or is not text. -/
  | unreadable
  | malformed
  | invalid (error : ConfigError)
deriving DecidableEq, Repr

/-- Where a configuration comes from before the overrides. -/
inductive Source where
  | defaults
  /-- A document was named, but there is none to read. -/
  | unreadable
  | document (bytes : ByteArray)

/-- The configuration of a source, which must be text of the right form. -/
def Source.read : Source → Except LoadError Config
  | .defaults => .ok {}
  | .unreadable => .error .unreadable
  | .document bytes =>
    match String.fromUTF8? bytes with
    | none => .error .unreadable
    | some text =>
      match ofDocument? text with
      | none => .error .malformed
      | some c => .ok c

/-- Loads a configuration: what the source gives, under the overrides. It is checked last. -/
def load (source : Source) (o : Overrides) : Except LoadError Config :=
  match source.read with
  | .error e => .error e
  | .ok c =>
    match (c.override o).validate with
    | .error e => .error (.invalid e)
    | .ok () => .ok (c.override o)

end VirtineCleaning.Config
