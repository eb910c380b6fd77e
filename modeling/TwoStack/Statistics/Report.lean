import TwoStack.Decimal.Binary
import TwoStack.Statistics
import TwoStack.Text.Layout

/-! Statistics as a block of text. -/

namespace TwoStack.Statistics

/-- The share of `n` in all steps, in percent. It is computed in double precision, as a quotient and
then a product, and written with two places. -/
def percent (s : Statistics) (n : UInt64) : String :=
  let steps := (max s.steps 1).toFloat
  (Decimal.Binary.ofFloat (n.toFloat / steps * 100)).fixed 2

def heavyRule : String :=
  String.ofList (List.replicate 58 '=')

def lightRule : String :=
  String.ofList (List.replicate 58 '-')

/-- A label, filled up to the column of the numbers, and its number. -/
def row (label value : String) : String :=
  Text.alignLeft 25 label ++ value

def countRow (label : String) (n : UInt64) : String :=
  row label (Text.decimal n.toNat)

/-- A count with its share in all steps. -/
def shareRow (s : Statistics) (label : String) (c : InstructionClass) : String :=
  countRow label (s.count c) ++ " (" ++ s.percent (s.count c) ++ "%)"

/-- The block, with the text given for the time it took. -/
def report (s : Statistics) (hostSeconds : String) : String :=
  Text.lines [
    "",
    heavyRule,
    "STACK MACHINE SIMULATION STATISTICS",
    heavyRule,
    row "host_seconds" hostSeconds,
    countRow "sim_steps" s.steps,
    lightRule,
    "INSTRUCTION MIX",
    s.shareRow "  op.stack" .stack,
    s.shareRow "  op.arith" .arithmetic,
    s.shareRow "  op.compare" .compare,
    s.shareRow "  op.control" .control,
    s.shareRow "  op.return_stack" .returnStack,
    s.shareRow "  op.io" .io,
    s.shareRow "  op.system" .system,
    countRow "  op.unknown" s.unknown,
    lightRule,
    "BRANCHES",
    countRow "  br_if.taken" s.taken,
    countRow "  br_if.not_taken" s.notTaken,
    lightRule,
    "STACKS",
    row "  data.max_depth" (Text.decimal s.maxData),
    row "  return.max_depth" (Text.decimal s.maxReturn),
    heavyRule]

end TwoStack.Statistics
