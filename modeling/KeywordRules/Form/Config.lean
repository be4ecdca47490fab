import KeywordRules.Form.Fault
import KeywordRules.Options.Basic

/-!
# The JSON form of a configuration

A configuration is an object, or an array in which the values stand in the order of the fields. Keys
that nothing wants are passed over with whatever they hold, which then has to be JSON only by its
grammar. An array with more values than there are fields is malformed.
-/

namespace KeywordRules

open KeywordRules.Json

namespace Options

/-- The fault of a flag that is named twice. -/
def repeatedFault (flag : Flag) : Fault :=
  .unfit (.duplicateField flag.key)

/-- Takes a pair of an object. -/
def takePair (settings : Settings) : Document × Document → Except Fault Settings
  | (.string (some key), value) => settings.take repeatedFault key value.asBool (.ok ())
  | _ => .error .malformed

/-- The options of a document. -/
def ofDocument : Document → Except Fault Options
  | .object pairs closed => do
    let settings ← pairs.foldlM takePair Settings.blank
    if closed then return settings.toOptions else throw .malformed
  | .array items closed => do
    let settings ← Settings.takeInOrder (items.map Document.asBool)
    if closed && decide (items.length ≤ Flag.all.length) then return settings.toOptions
    else throw .malformed
  | d => .error (d.mismatch .options)

end Options

namespace Config

/-- Takes a pair of an object, given the code generation options found so far. -/
def takePair (found : Option Options) : Document × Document → Except Fault (Option Options)
  | (.string (some key), value) =>
    if key = generationKey then
      match found with
      | some _ => .error (.unfit (.duplicateField generationKey))
      | none => (Options.ofDocument value).map some
    else .ok found
  | _ => .error .malformed

/-- The configuration of a document. -/
def ofDocument : Document → Except Fault Config
  | .object pairs closed => do
    let found ← pairs.foldlM takePair none
    if closed then return ⟨found.getD .off⟩ else throw .malformed
  | .array [] closed => if closed then .ok .default else .error .malformed
  | .array (item :: items) closed => do
    let options ← Options.ofDocument item
    if closed && items.isEmpty then return ⟨options⟩ else throw .malformed
  | d => .error (d.mismatch .config)

/-- Reads a configuration from a JSON text. -/
def parseJson (text : String) : Except Fault Config :=
  Document.parse ofDocument text

end Config

end KeywordRules
