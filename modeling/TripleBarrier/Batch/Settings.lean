import TripleBarrier.Document.Record
import TripleBarrier.Json.Basic

/-!
# Settings of a batch

What all simulations of a batch share: the cost of a trade, and how the work is spread.

## Main definitions

* `Settings` — the settings, with their usual values.
* `Settings.fault?` — the first rule that settings break.
* `Settings.toJson`, `Settings.lines` — the settings as a record and as a settings file.
* `Settings.decoder` — reads settings, of which any may be missing.
-/

namespace TripleBarrier

/-- The settings of a batch. -/
structure Settings where
  /-- The fraction of the money moved that one trade costs. -/
  costRate : Float := 0.0
  /-- Whether simulations may run side by side. -/
  parallel : Bool := true
  /-- How many of them may, if not as many as usual. -/
  threads : Option Nat := none
  deriving DecidableEq

namespace Settings

/-! ### Rules -/

/-- The rules of sound settings. -/
inductive Fault
  | costRate (x : Float)
  | noThreads

/-- What a fault says. -/
def Fault.message : Fault → String
  | costRate x =>
    "per_trade_cost_rate must be finite and in [0, 1), got " ++
      String.ofList (Decimal.plain.render x)
  | noThreads => "num_threads must be non-zero"

/-- A cost rate is a fraction short of the whole. -/
def isRate (x : Float) : Bool :=
  x.isFinite && 0.0 ≤ x && x < 1.0

/-- The first rule that settings break. -/
def fault? (s : Settings) : Option Fault :=
  if !isRate s.costRate then some (.costRate s.costRate)
  else if s.threads = some 0 then some .noThreads
  else none

/-! ### Documents -/

/-- Settings are written with every field. -/
def toJson (s : Settings) : Json :=
  .object [("per_trade_cost_rate", .float s.costRate), ("parallel", .bool s.parallel),
    ("num_threads", Json.option (fun n => .int (Int.ofNat n)) s.threads)]

/-- The text of a settings file: a line for every setting that is there. -/
def lines (s : Settings) : List Char :=
  let line (name : String) (value : List Char) := name.toList ++ " = ".toList ++ value ++ ['\n']
  line "per_trade_cost_rate" (Decimal.pointed.render s.costRate) ++
    line "parallel" (Json.boolText s.parallel) ++
    s.threads.elim [] fun n => line "num_threads" (Text.natText n)

/-- Reads settings, which need not be sound: those that are missing have their usual values. -/
def decoder : Decoder Settings :=
  let usual : Settings := {}
  (Settings.mk <$> .defaultField "per_trade_cost_rate" Decoder.float usual.costRate <*>
    .defaultField "parallel" Decoder.bool usual.parallel <*>
    .defaultField "num_threads" (Decoder.optional Decoder.size) usual.threads :
      Record Settings).decoder "struct BatchConfig"

end Settings
end TripleBarrier
