import BuildingModel.View.Frame
import BuildingModel.View.Load

/-!
# Statistics

The counts of a model and of the frames drawn so far, and their text as a data object.
-/

namespace BuildingModel

/-- The counts of a model. -/
structure ModelStats where
  objects : Nat
  triangles : Nat
  high : Nat
  medium : Nat
  low : Nat
  minimal : Nat
  parseMilliseconds : Float
  extractMilliseconds : Float
  frameMilliseconds : Float
  frames : Nat
  problems : UInt64
  skippedUnsupported : Nat

namespace ModelStats

/-- The counts of the model that is shown, if there is one. -/
def ofReport (report : Option LoadReport) (m : FrameMetrics) : ModelStats where
  objects := (report.map (·.objects)).getD 0
  triangles := (report.map (·.triangles)).getD 0
  high := m.last.high
  medium := m.last.medium
  low := m.last.low
  minimal := m.last.minimal
  parseMilliseconds := (report.map (·.times.parse)).getD 0
  extractMilliseconds := (report.map (·.times.extract)).getD 0
  frameMilliseconds := m.meanMilliseconds
  frames := m.frames
  problems := (report.map (·.log.total)).getD 0
  skippedUnsupported := (report.map (·.extraction.skippedUnsupported)).getD 0

/-- The members of an object, one on a line. -/
def objectText (indent : String) (members : List (String × String)) : String :=
  let lines := members.map fun (name, value) => indent ++ "  \"" ++ name ++ "\": " ++ value
  "\x7b\n" ++ ",\n".intercalate lines ++ "\n" ++ indent ++ "\x7d"

/-- The counts as a data object. -/
def text (s : ModelStats) : String :=
  let count := Number.natText
  let time := Number.dataText
  objectText "" [
    ("objects", count s.objects),
    ("triangles", count s.triangles),
    ("lod", objectText "  " [
      ("high", count s.high),
      ("medium", count s.medium),
      ("low", count s.low),
      ("minimal", count s.minimal)]),
    ("parse_ms", time s.parseMilliseconds),
    ("extraction_ms", time s.extractMilliseconds),
    ("frame_ms", time s.frameMilliseconds),
    ("frames", count s.frames),
    ("diagnostics", count s.problems.toNat),
    ("skipped_unsupported", count s.skippedUnsupported)]

end ModelStats

end BuildingModel
