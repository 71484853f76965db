import ShapeGeometry.Shape.Preset

namespace ShapeGeometry.Catalogue

variable {α : Type} [Scalar α]

def rect : Preset α where
  name := "rect"
  adjustDefaults := []
  guides := []
  paths :=
    [{ commands := [.moveTo "l" "t", .lineTo "r" "t", .lineTo "r" "b", .lineTo "l" "b", .close] }]
  textRect := some ⟨"l", "t", "r", "b"⟩

def roundRect : Preset α where
  name := "roundRect"
  adjustDefaults := [⟨"adj", "val 16667"⟩]
  guides :=
    [⟨"a", "pin 0 adj 50000"⟩, ⟨"x1", "*/ ss a 100000"⟩, ⟨"x2", "+- r 0 x1"⟩, ⟨"y2", "+- b 0 x1"⟩,
     ⟨"il", "*/ x1 29289 100000"⟩, ⟨"ir", "+- r 0 il"⟩, ⟨"ib", "+- b 0 il"⟩]
  paths :=
    [{ commands :=
         [.moveTo "l" "x1", .arcTo "x1" "x1" "cd2" "cd4", .lineTo "x2" "t",
          .arcTo "x1" "x1" "3cd4" "cd4", .lineTo "r" "y2", .arcTo "x1" "x1" "0" "cd4",
          .lineTo "x1" "b", .arcTo "x1" "x1" "cd4" "cd4", .close] }]
  textRect := some ⟨"il", "il", "ir", "ib"⟩

def ellipse : Preset α where
  name := "ellipse"
  adjustDefaults := []
  guides :=
    [⟨"idx", "cos wd2 2700000"⟩, ⟨"idy", "sin hd2 2700000"⟩, ⟨"il", "+- hc 0 idx"⟩,
     ⟨"ir", "+- hc idx 0"⟩, ⟨"it", "+- vc 0 idy"⟩, ⟨"ib", "+- vc idy 0"⟩]
  paths :=
    [{ commands :=
         [.moveTo "l" "vc", .arcTo "wd2" "hd2" "cd2" "cd4", .arcTo "wd2" "hd2" "3cd4" "cd4",
          .arcTo "wd2" "hd2" "0" "cd4", .arcTo "wd2" "hd2" "cd4" "cd4", .close] }]
  textRect := some ⟨"il", "it", "ir", "ib"⟩

def triangle : Preset α where
  name := "triangle"
  adjustDefaults := [⟨"adj", "val 50000"⟩]
  guides :=
    [⟨"a", "pin 0 adj 100000"⟩, ⟨"x1", "*/ w a 200000"⟩, ⟨"x2", "*/ w a 100000"⟩,
     ⟨"x3", "+- x1 wd2 0"⟩]
  paths :=
    [{ commands := [.moveTo "l" "b", .lineTo "x2" "t", .lineTo "r" "b", .close] }]
  textRect := some ⟨"x1", "vc", "x3", "b"⟩

def rtTriangle : Preset α where
  name := "rtTriangle"
  adjustDefaults := []
  guides := [⟨"it", "*/ h 7 12"⟩, ⟨"ir", "*/ w 7 12"⟩, ⟨"ib", "*/ h 11 12"⟩]
  paths :=
    [{ commands := [.moveTo "l" "b", .lineTo "l" "t", .lineTo "r" "b", .close] }]
  textRect := some ⟨"l", "it", "ir", "ib"⟩

def diamond : Preset α where
  name := "diamond"
  adjustDefaults := []
  guides := [⟨"ir", "*/ w 3 4"⟩, ⟨"ib", "*/ h 3 4"⟩]
  paths :=
    [{ commands :=
         [.moveTo "l" "vc", .lineTo "hc" "t", .lineTo "r" "vc", .lineTo "hc" "b", .close] }]
  textRect := some ⟨"wd4", "hd4", "ir", "ib"⟩

def parallelogram : Preset α where
  name := "parallelogram"
  adjustDefaults := [⟨"adj", "val 25000"⟩]
  guides :=
    [⟨"maxAdj", "*/ 100000 w ss"⟩, ⟨"a", "pin 0 adj maxAdj"⟩, ⟨"x1", "*/ ss a 200000"⟩,
     ⟨"x2", "*/ ss a 100000"⟩, ⟨"x6", "+- r 0 x2"⟩, ⟨"x5", "+- r 0 x1"⟩, ⟨"q1", "*/ 5 a maxAdj"⟩,
     ⟨"q2", "+/ 1 q1 12"⟩, ⟨"il", "*/ q2 w 1"⟩, ⟨"it", "*/ q2 h 1"⟩, ⟨"ir", "+- r 0 il"⟩,
     ⟨"ib", "+- b 0 it"⟩]
  paths :=
    [{ commands :=
         [.moveTo "l" "b", .lineTo "x2" "t", .lineTo "r" "t", .lineTo "x6" "b", .close] }]
  textRect := some ⟨"il", "it", "ir", "ib"⟩

def trapezoid : Preset α where
  name := "trapezoid"
  adjustDefaults := [⟨"adj", "val 25000"⟩]
  guides :=
    [⟨"maxAdj", "*/ 50000 w ss"⟩, ⟨"a", "pin 0 adj maxAdj"⟩, ⟨"x1", "*/ ss a 200000"⟩,
     ⟨"x2", "*/ ss a 100000"⟩, ⟨"x3", "+- r 0 x2"⟩, ⟨"x4", "+- r 0 x1"⟩,
     ⟨"il", "*/ wd3 a maxAdj"⟩, ⟨"it", "*/ hd3 a maxAdj"⟩, ⟨"ir", "+- r 0 il"⟩]
  paths :=
    [{ commands :=
         [.moveTo "l" "b", .lineTo "x2" "t", .lineTo "x3" "t", .lineTo "r" "b", .close] }]
  textRect := some ⟨"il", "it", "ir", "b"⟩

def hexagon : Preset α where
  name := "hexagon"
  adjustDefaults := [⟨"adj", "val 25000"⟩, ⟨"vf", "val 115470"⟩]
  guides :=
    [⟨"maxAdj", "*/ 50000 w ss"⟩, ⟨"a", "pin 0 adj maxAdj"⟩, ⟨"shd2", "*/ hd2 vf 100000"⟩,
     ⟨"x1", "*/ ss a 100000"⟩, ⟨"x2", "+- r 0 x1"⟩, ⟨"dy1", "sin shd2 3600000"⟩,
     ⟨"y1", "+- vc 0 dy1"⟩, ⟨"y2", "+- vc dy1 0"⟩, ⟨"q1", "*/ maxAdj -1 2"⟩, ⟨"q2", "+- a q1 0"⟩,
     ⟨"q3", "?: q2 4 2"⟩, ⟨"q4", "?: q2 3 2"⟩, ⟨"q5", "?: q1 24 0"⟩, ⟨"q6", "+/ a q5 q1"⟩,
     ⟨"q7", "*/ q6 q4 -1"⟩, ⟨"q8", "+- q3 q7 0"⟩, ⟨"il", "*/ w q8 24"⟩, ⟨"it", "*/ h q8 24"⟩,
     ⟨"ir", "+- r 0 il"⟩, ⟨"ib", "+- b 0 it"⟩]
  paths :=
    [{ commands :=
         [.moveTo "l" "vc", .lineTo "x1" "y1", .lineTo "x2" "y1", .lineTo "r" "vc",
          .lineTo "x2" "y2", .lineTo "x1" "y2", .close] }]
  textRect := some ⟨"il", "it", "ir", "ib"⟩

def octagon : Preset α where
  name := "octagon"
  adjustDefaults := [⟨"adj", "val 29289"⟩]
  guides :=
    [⟨"a", "pin 0 adj 50000"⟩, ⟨"x1", "*/ ss a 100000"⟩, ⟨"x2", "+- r 0 x1"⟩, ⟨"y2", "+- b 0 x1"⟩,
     ⟨"il", "*/ x1 1 2"⟩, ⟨"ir", "+- r 0 il"⟩, ⟨"ib", "+- b 0 il"⟩]
  paths :=
    [{ commands :=
         [.moveTo "l" "x1", .lineTo "x1" "t", .lineTo "x2" "t", .lineTo "r" "x1",
          .lineTo "r" "y2", .lineTo "x2" "b", .lineTo "x1" "b", .lineTo "l" "y2", .close] }]
  textRect := some ⟨"il", "il", "ir", "ib"⟩

def plus : Preset α where
  name := "plus"
  adjustDefaults := [⟨"adj", "val 25000"⟩]
  guides :=
    [⟨"a", "pin 0 adj 50000"⟩, ⟨"x1", "*/ ss a 100000"⟩, ⟨"x2", "+- r 0 x1"⟩, ⟨"y2", "+- b 0 x1"⟩,
     ⟨"d", "+- w 0 h"⟩, ⟨"il", "?: d l x1"⟩, ⟨"ir", "?: d r x2"⟩, ⟨"it", "?: d x1 t"⟩,
     ⟨"ib", "?: d y2 b"⟩]
  paths :=
    [{ commands :=
         [.moveTo "l" "x1", .lineTo "x1" "x1", .lineTo "x1" "t", .lineTo "x2" "t",
          .lineTo "x2" "x1", .lineTo "r" "x1", .lineTo "r" "y2", .lineTo "x2" "y2",
          .lineTo "x2" "b", .lineTo "x1" "b", .lineTo "x1" "y2", .lineTo "l" "y2", .close] }]
  textRect := some ⟨"il", "it", "ir", "ib"⟩

def line : Preset α where
  name := "line"
  adjustDefaults := []
  guides := []
  paths :=
    [{ fill := .none,
       commands := [.moveTo "l" "t", .lineTo "r" "b"] }]
  textRect := some ⟨"l", "t", "r", "b"⟩

def can : Preset α where
  name := "can"
  adjustDefaults := [⟨"adj", "val 25000"⟩]
  guides :=
    [⟨"maxAdj", "*/ 50000 h ss"⟩, ⟨"a", "pin 0 adj maxAdj"⟩, ⟨"y1", "*/ ss a 200000"⟩,
     ⟨"y2", "+- y1 y1 0"⟩, ⟨"y3", "+- b 0 y1"⟩]
  paths :=
    [{ stroke := false,
       commands :=
         [.moveTo "l" "y1", .arcTo "wd2" "y1" "cd2" "-10800000", .lineTo "r" "y3",
          .arcTo "wd2" "y1" "0" "cd2", .close] },
     { fill := .lighten, stroke := false,
       commands :=
         [.moveTo "l" "y1", .arcTo "wd2" "y1" "cd2" "cd2", .arcTo "wd2" "y1" "0" "cd2", .close] },
     { fill := .none,
       commands :=
         [.moveTo "r" "y1", .arcTo "wd2" "y1" "0" "cd2", .arcTo "wd2" "y1" "cd2" "cd2",
          .lineTo "r" "y3", .arcTo "wd2" "y1" "0" "cd2", .lineTo "l" "y1"] }]
  textRect := some ⟨"l", "y2", "r", "y3"⟩

def homePlate : Preset α where
  name := "homePlate"
  adjustDefaults := [⟨"adj", "val 50000"⟩]
  guides :=
    [⟨"maxAdj", "*/ 100000 w ss"⟩, ⟨"a", "pin 0 adj maxAdj"⟩, ⟨"dx1", "*/ ss a 100000"⟩,
     ⟨"x1", "+- r 0 dx1"⟩, ⟨"ir", "+/ x1 r 2"⟩]
  paths :=
    [{ commands :=
         [.moveTo "l" "t", .lineTo "x1" "t", .lineTo "r" "vc", .lineTo "x1" "b", .lineTo "l" "b",
          .close] }]
  textRect := some ⟨"l", "t", "ir", "b"⟩

def chevron : Preset α where
  name := "chevron"
  adjustDefaults := [⟨"adj", "val 50000"⟩]
  guides :=
    [⟨"maxAdj", "*/ 100000 w ss"⟩, ⟨"a", "pin 0 adj maxAdj"⟩, ⟨"x1", "*/ ss a 100000"⟩,
     ⟨"x2", "+- r 0 x1"⟩, ⟨"dx", "+- x2 0 x1"⟩, ⟨"il", "?: dx x1 l"⟩, ⟨"ir", "?: dx x2 r"⟩]
  paths :=
    [{ commands :=
         [.moveTo "l" "t", .lineTo "x2" "t", .lineTo "r" "vc", .lineTo "x2" "b", .lineTo "l" "b",
          .lineTo "x1" "vc", .close] }]
  textRect := some ⟨"il", "t", "ir", "b"⟩

def rightArrow : Preset α where
  name := "rightArrow"
  adjustDefaults := [⟨"adj1", "val 50000"⟩, ⟨"adj2", "val 50000"⟩]
  guides :=
    [⟨"maxAdj2", "*/ 100000 w ss"⟩, ⟨"a1", "pin 0 adj1 100000"⟩, ⟨"a2", "pin 0 adj2 maxAdj2"⟩,
     ⟨"dx1", "*/ ss a2 100000"⟩, ⟨"x1", "+- r 0 dx1"⟩, ⟨"dy1", "*/ h a1 200000"⟩,
     ⟨"y1", "+- vc 0 dy1"⟩, ⟨"y2", "+- vc dy1 0"⟩, ⟨"dx2", "*/ y1 dx1 hd2"⟩,
     ⟨"x2", "+- x1 dx2 0"⟩]
  paths :=
    [{ commands :=
         [.moveTo "l" "y1", .lineTo "x1" "y1", .lineTo "x1" "t", .lineTo "r" "vc",
          .lineTo "x1" "b", .lineTo "x1" "y2", .lineTo "l" "y2", .close] }]
  textRect := some ⟨"l", "y1", "x2", "y2"⟩

/-! The paths of the flow chart presets have a space of their own. -/

def flowChartProcess : Preset α where
  name := "flowChartProcess"
  adjustDefaults := []
  guides := []
  paths :=
    [{ width := some 1, height := some 1,
       commands := [.moveTo "0" "0", .lineTo "1" "0", .lineTo "1" "1", .lineTo "0" "1", .close] }]
  textRect := some ⟨"l", "t", "r", "b"⟩

def flowChartDecision : Preset α where
  name := "flowChartDecision"
  adjustDefaults := []
  guides := [⟨"ir", "*/ w 3 4"⟩, ⟨"ib", "*/ h 3 4"⟩]
  paths :=
    [{ width := some 2, height := some 2,
       commands := [.moveTo "0" "1", .lineTo "1" "0", .lineTo "2" "1", .lineTo "1" "2", .close] }]
  textRect := some ⟨"wd4", "hd4", "ir", "ib"⟩

def flowChartDocument : Preset α where
  name := "flowChartDocument"
  adjustDefaults := []
  guides := [⟨"y1", "*/ h 17322 21600"⟩, ⟨"y2", "*/ h 20172 21600"⟩]
  paths :=
    [{ width := some 21600, height := some 21600,
       commands :=
         [.moveTo "0" "0", .lineTo "21600" "0", .lineTo "21600" "17322",
          .cubicTo "10800" "17322" "10800" "23922" "0" "20172", .close] }]
  textRect := some ⟨"l", "t", "r", "y1"⟩

def presets : List (Preset α) :=
  [rect, roundRect, ellipse, triangle, rtTriangle, diamond, parallelogram, trapezoid, hexagon,
   octagon, plus, homePlate, chevron, rightArrow, line, can, flowChartProcess, flowChartDecision,
   flowChartDocument]

def find? (name : String) : Option (Preset α) :=
  presets.find? (·.name = name)

/-- The names of the presets in alphabetical order. -/
def names : List String :=
  ((presets : List (Preset Float)).map Preset.name).mergeSort

/-- Fails only for a name that no preset has. -/
def resolve? (name : String) (width height : α) (overrides : Option (Table α)) :
    Option (Layout α) :=
  (find? name).map (·.resolve width height overrides)

end ShapeGeometry.Catalogue
