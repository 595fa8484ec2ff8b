import TripleBarrier.Batch.Settings
import TripleBarrier.Toml.Reader

/-!
# Settings files

Settings are loaded from a file in UTF-8 and have to be sound.  What stands in the way is told
apart: there is no readable text, the text does not give settings, or the settings break a rule.
-/

namespace TripleBarrier
namespace Settings

/-- Why settings are not loaded. -/
inductive LoadError
  | unreadable
  | misfit (m : Misfit)
  | fault (f : Fault)

/-- The settings of a text, if they are sound. -/
def ofText (text : String) : Except LoadError Settings :=
  match Toml.decode decoder text with
  | .error m => .error (.misfit m)
  | .ok s =>
    match s.fault? with
    | none => .ok s
    | some f => .error (.fault f)

/-- The settings of a file with the given bytes, or of a file that is absent. -/
def ofBytes (bytes : Option (List UInt8)) : Except LoadError Settings :=
  match bytes.bind fun bs => String.fromUTF8? ⟨bs.toArray⟩ with
  | some text => ofText text
  | none => .error .unreadable

end Settings
end TripleBarrier
