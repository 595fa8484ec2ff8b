import TripleBarrier.Digest.Blake3
import TripleBarrier.Schema.Position

/-!
# Fingerprints

A position is known by the digest of its compact text.  Positions with the same terms have the same
fingerprint, so a result can be looked up by what was asked for.
-/

namespace TripleBarrier

/-- The name of a position that is derived from its terms alone. -/
structure Fingerprint where
  text : String
  deriving DecidableEq, Repr, Hashable

namespace Position

/-- The compact text that stands for a position. -/
def canonicalText (p : Position) : String :=
  p.toJson.text

/-- The digest of the compact text. -/
def fingerprint (p : Position) : Fingerprint :=
  ⟨Blake3.hexText p.canonicalText.toUTF8.toList⟩

end Position

namespace Fingerprint

/-- A fingerprint is written as its text. -/
def toJson (f : Fingerprint) : Json :=
  .string f.text

/-- Reads a fingerprint, which may be any text. -/
def decoder : Decoder Fingerprint := fun dialect doc =>
  (Decoder.text dialect doc).map Fingerprint.mk

end Fingerprint
end TripleBarrier
