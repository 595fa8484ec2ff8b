import TripleBarrier.Exit.TrailingStop
import TripleBarrier.Schema.Position
import TripleBarrier.Simulation.Outcome

/-!
# Outcomes in documents

An outcome is written with its position, all ledger lines, the barrier that closed it and its
entry.
-/

namespace TripleBarrier

/-- A barrier is written as its name. -/
def ExitReason.toJson (r : ExitReason) : Json :=
  .string r.name

/-- Reads a barrier. -/
def ExitReason.decoder : Decoder ExitReason :=
  Decoder.byName ExitReason.all ExitReason.name

/-- A ledger line is written with all its figures. -/
def Row.toJson (r : Row) : Json :=
  .object [("timestamp", .int r.time.toInt), ("close_price", .float r.price),
    ("net_pnl_pct", .float r.netReturn), ("net_pnl_quote", .float r.profit),
    ("cum_fees_quote", .float r.fees), ("filled_amount_quote", .float r.volume),
    ("current_avg_entry_price", .float r.averageEntry)]

/-- Reads a ledger line. -/
def Row.decoder : Decoder Row :=
  (Row.mk <$> .field "timestamp" Decoder.int64 <*> .field "close_price" Decoder.float <*>
    .field "net_pnl_pct" Decoder.float <*> .field "net_pnl_quote" Decoder.float <*>
    .field "cum_fees_quote" Decoder.float <*> .field "filled_amount_quote" Decoder.float <*>
    .field "current_avg_entry_price" Decoder.float : Record Row).decoder "struct SimulationRow"

/-- An entry is written with its place, time and price. -/
def Fill.toJson (f : Fill) : Json :=
  .object [("index", .int f.index), ("timestamp", .int f.time.toInt), ("price", .float f.price)]

/-- Reads an entry. -/
def Fill.decoder : Decoder Fill :=
  (Fill.mk <$> .field "index" Decoder.size <*> .field "timestamp" Decoder.int64 <*>
    .field "price" Decoder.float : Record Fill).decoder "struct EntryFill"

/-- An outcome is written with every field, an absent entry as null. -/
def Outcome.toJson (o : Outcome) : Json :=
  .object [("spec", o.position.toJson), ("rows", .array (o.rows.map Row.toJson)),
    ("close_type", o.reason.toJson), ("entry", Json.option Fill.toJson o.fill)]

/-- Reads an outcome. -/
def Outcome.decoder : Decoder Outcome :=
  (Outcome.mk <$> .field "spec" Position.decoder <*> .field "rows" (Decoder.list Row.decoder) <*>
    .field "close_type" ExitReason.decoder <*>
    .optionalField "entry" Fill.decoder : Record Outcome).decoder "struct SimulationResult"

/-! ### Phases of a trailing stop -/

namespace TrailingStop.Phase

/-- A phase is written as its name, with the floor if there is one. -/
def toJson : Phase → Json
  | disarmed => .string "Disarmed"
  | armed floor => .object [("Armed", .object [("floor", .float floor)])]
  | triggered floor => .object [("Triggered", .object [("floor", .float floor)])]

/-- The names of the phases in documents. -/
def names : List String :=
  ["Disarmed", "Armed", "Triggered"]

/-- Reads the floor of a phase. -/
def floorDecoder (name : String) : Decoder Float :=
  (Record.field "floor" Decoder.float).decoder ("struct variant TrailingPhase::" ++ name)

/-- Reads a phase: only the disarmed one stands alone. -/
def decoder : Decoder Phase := fun dialect doc =>
  Decoder.named names
    (fun name =>
      if name = "Disarmed" then .ok disarmed
      else .error (.wrongType .bareName "struct variant"))
    (fun name value =>
      if name = "Disarmed" then (Decoder.noValue dialect value).map fun _ => disarmed
      else (floorDecoder name dialect value).map (if name = "Armed" then armed else triggered))
    dialect doc

end TrailingStop.Phase
end TripleBarrier
