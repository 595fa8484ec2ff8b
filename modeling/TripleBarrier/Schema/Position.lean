import TripleBarrier.Position.Basic
import TripleBarrier.Schema.Market

/-!
# Positions in documents

A position is written as its terms, with every field, and read by reading terms and checking them.
-/

namespace TripleBarrier

/-- A trailing stop is written as its two parameters. -/
def Trail.toJson (t : Trail) : Json :=
  .object [("activation_return", .float t.activation), ("trailing_delta", .float t.distance)]

/-- Reads a trailing stop. -/
def Trail.decoder : Decoder Trail :=
  (Trail.mk <$> .field "activation_return" Decoder.float <*>
    .field "trailing_delta" Decoder.float : Record Trail).decoder "struct TrailingStopConfig"

namespace Terms

/-- Terms are written with every field, absent exits as null. -/
def toJson (t : Terms) : Json :=
  .object [("creation_timestamp", .int t.created.toInt), ("side", t.side.toJson),
    ("entry_price", .float t.price), ("amount", .float t.amount),
    ("is_limit_entry", .bool t.isLimit), ("take_profit", Json.option .float t.takeProfit),
    ("stop_loss", Json.option .float t.stopLoss),
    ("trailing_stop", Json.option Trail.toJson t.trail),
    ("time_limit", Json.option (fun n => .int n.toInt) t.timeLimit)]

/-- The fields of terms: entry at the market and no exits are understood. -/
def record : Record Terms :=
  Terms.mk <$> .field "creation_timestamp" Decoder.int64 <*> .field "side" Side.decoder <*>
    .field "entry_price" Decoder.float <*> .field "amount" Decoder.float <*>
    .defaultField "is_limit_entry" Decoder.bool false <*>
    .defaultField "take_profit" (Decoder.optional Decoder.float) none <*>
    .defaultField "stop_loss" (Decoder.optional Decoder.float) none <*>
    .defaultField "trailing_stop" (Decoder.optional Trail.decoder) none <*>
    .defaultField "time_limit" (Decoder.optional Decoder.int64) none

/-- Reads terms without checking them. -/
def decoder : Decoder Terms :=
  record.decoder "struct PositionConfig"

end Terms

namespace Position

/-- A position is written as its terms. -/
def toJson (p : Position) : Json :=
  p.terms.toJson

/-- Reads terms and checks them. -/
def decoder : Decoder Position :=
  Decoder.checked Terms.decoder fun t => (ofTerms t).mapError Terms.Fault.message

end Position
end TripleBarrier
