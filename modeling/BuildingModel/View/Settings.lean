import BuildingModel.Extract.Rules
import BuildingModel.Number.Reading
import BuildingModel.Text.Blank
import BuildingModel.View.Detail

/-!
# Settings of the viewer

Settings may be given as texts. A text that cannot be read leaves the usual value; distances that do not
increase are left out together.
-/

namespace BuildingModel

/-- The settings of the viewer. -/
structure ViewSettings where
  thresholds : Thresholds Float32
  /-- How many entities are extracted between two looks at whether to go on. -/
  extractBatch : Nat
  /-- How many problems are kept with their messages. -/
  maxProblems : Nat
  width : UInt32
  height : UInt32
  /-- How many frames a second should have. -/
  framesPerSecond : UInt32
  /-- How many things are done at once; as many as there are processors if nothing is said. -/
  workers : Option Nat
  /-- The colour of selected objects. -/
  highlight : Color

/-- Settings as texts, as far as they are given. -/
structure SettingsText where
  medium : Option String
  low : Option String
  minimal : Option String
  extractBatch : Option String
  maxProblems : Option String
  viewport : Option String
  framesPerSecond : Option String
  workers : Option String

namespace ViewSettings

/-- The usual settings. -/
def standard : ViewSettings where
  thresholds := .standard
  extractBatch := ExtractionSettings.defaultBatchSize
  maxProblems := defaultProblemLimit
  width := 1280
  height := 720
  framesPerSecond := 60
  workers := none
  highlight := ⟨1, 0.55, 0⟩

/-- A count of things. -/
def count? (text : String) : Option Nat := Number.wholeUpTo? (UInt64.size - 1) text.toList

/-- A word of 32 bits that is not zero. -/
def positiveWord? (cs : List Char) : Option UInt32 :=
  ((Number.wholeUpTo? (UInt32.size - 1) cs).filter (0 < ·)).map Nat.toUInt32

/-- The width and height of a picture, with a cross between them. -/
def viewport? (text : String) : Option (UInt32 × UInt32) := do
  let isCross (c : Char) : Bool := c == 'x' || c == 'X'
  let cs := Text.trim text.toList
  let width ← positiveWord? (Text.trim (cs.takeWhile (!isCross ·)))
  match cs.dropWhile (!isCross ·) with
  | _ :: rest => return (width, ← positiveWord? (Text.trim rest))
  | [] => none

/-- Thresholds read from texts. -/
def thresholdsOf (t : SettingsText) : Thresholds Float32 :=
  let usual : Thresholds Float32 := .standard
  let read (text : Option String) (usual : Float32) : Float32 :=
    (text.bind fun s => Number.single? s.toList).getD usual
  let given : Thresholds Float32 :=
    ⟨read t.medium usual.medium, read t.low usual.low, read t.minimal usual.minimal⟩
  if given.isValid then given else usual

/-- Settings read from texts. -/
def ofText (t : SettingsText) : ViewSettings :=
  let size := (t.viewport.bind viewport?).getD (standard.width, standard.height)
  { standard with
    thresholds := thresholdsOf t
    extractBatch := ((t.extractBatch.bind count?).filter (0 < ·)).getD standard.extractBatch
    maxProblems := (t.maxProblems.bind count?).getD standard.maxProblems
    width := size.1
    height := size.2
    framesPerSecond :=
      (t.framesPerSecond.bind fun s => positiveWord? s.toList).getD standard.framesPerSecond
    workers := t.workers.bind count? }

/-- The settings of extraction. -/
def extraction (s : ViewSettings) : ExtractionSettings :=
  { ExtractionSettings.standard with batchSize := s.extractBatch, messageLimit := s.maxProblems }

/-- How many milliseconds a frame may take. -/
def frameBudget (s : ViewSettings) : Float := 1000.0 / (max s.framesPerSecond 1).toFloat

end ViewSettings

end BuildingModel
