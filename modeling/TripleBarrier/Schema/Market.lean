import TripleBarrier.Document.Record
import TripleBarrier.Json.Basic
import TripleBarrier.Market.Bar

/-!
# Bars and sides in documents

A side is written as its name, a bar as a record of its time and prices.
-/

namespace TripleBarrier

/-- A side is written as its name. -/
def Side.toJson (side : Side) : Json :=
  .string side.name

/-- Reads a side. -/
def Side.decoder : Decoder Side :=
  Decoder.byName Side.all Side.name

/-- A bar is written with its time and its four prices. -/
def Bar.toJson (b : Bar) : Json :=
  .object [("timestamp", .int b.time.toInt), ("open", .float b.opening), ("high", .float b.high),
    ("low", .float b.low), ("close", .float b.close)]

/-- The fields of a bar. -/
def Bar.record : Record Bar :=
  Bar.mk <$> .field "timestamp" Decoder.int64 <*> .field "open" Decoder.float <*>
    .field "high" Decoder.float <*> .field "low" Decoder.float <*> .field "close" Decoder.float

/-- Reads a bar. -/
def Bar.decoder : Decoder Bar :=
  Bar.record.decoder "struct PriceBar"

end TripleBarrier
