import ShapeGeometry.Proofs.Shape.Catalogue.Setting

/-!
The sketches of the presets in numbers: the equations of their guides, the text rectangle and the corners, with the
values of the size for the built-in guides.
-/

namespace ShapeGeometry.Catalogue

open Exact

variable {env : String → ℝ} {width height : ℝ}

theorem rect_sketch (hs : Setting env width height) :
    (rect : Preset ℝ).sketch.ComesTo env
      True
      ⟨0, 0, width, height⟩
      [⟨0, 0⟩, ⟨width, 0⟩, ⟨width, height⟩, ⟨0, height⟩] := by
  conv => arg 1; cbv
  simp [Sketch.ComesTo, hs.sizes]

theorem roundRect_sketch (hs : Setting env width height) :
    (roundRect : Preset ℝ).sketch.ComesTo env
      (env "a" = Operator.pin.apply 0 (env "adj") 50000
        ∧ env "x1" = env "ss" * env "a" / 100000
        ∧ env "x2" = width - env "x1"
        ∧ env "y2" = height - env "x1"
        ∧ env "il" = env "x1" * 29289 / 100000
        ∧ env "ir" = width - env "il"
        ∧ env "ib" = height - env "il")
      ⟨env "il", env "il", env "ir", env "ib"⟩
      [⟨0, env "x1"⟩, ⟨env "x2", 0⟩, ⟨width, env "y2"⟩, ⟨env "x1", height⟩] := by
  conv => arg 1; cbv
  simp [Sketch.ComesTo, hs.sizes]

theorem ellipse_sketch (hs : Setting env width height) :
    (ellipse : Preset ℝ).sketch.ComesTo env
      (env "idx" = width / 2 * Real.cos (2700000 / 60000 * (Real.pi / 180))
        ∧ env "idy" = height / 2 * Real.sin (2700000 / 60000 * (Real.pi / 180))
        ∧ env "il" = width / 2 - env "idx"
        ∧ env "ir" = width / 2 + env "idx"
        ∧ env "it" = height / 2 - env "idy"
        ∧ env "ib" = height / 2 + env "idy")
      ⟨env "il", env "it", env "ir", env "ib"⟩
      [⟨0, height / 2⟩] := by
  conv => arg 1; cbv
  simp [Sketch.ComesTo, hs.sizes]

theorem triangle_sketch (hs : Setting env width height) :
    (triangle : Preset ℝ).sketch.ComesTo env
      (env "a" = Operator.pin.apply 0 (env "adj") 100000
        ∧ env "x1" = width * env "a" / 200000
        ∧ env "x2" = width * env "a" / 100000
        ∧ env "x3" = env "x1" + width / 2)
      ⟨env "x1", height / 2, env "x3", height⟩
      [⟨0, height⟩, ⟨env "x2", 0⟩, ⟨width, height⟩] := by
  conv => arg 1; cbv
  simp [Sketch.ComesTo, hs.sizes]

theorem rtTriangle_sketch (hs : Setting env width height) :
    (rtTriangle : Preset ℝ).sketch.ComesTo env
      (env "it" = height * 7 / 12
        ∧ env "ir" = width * 7 / 12
        ∧ env "ib" = height * 11 / 12)
      ⟨0, env "it", env "ir", env "ib"⟩
      [⟨0, height⟩, ⟨0, 0⟩, ⟨width, height⟩] := by
  conv => arg 1; cbv
  simp [Sketch.ComesTo, hs.sizes]

theorem diamond_sketch (hs : Setting env width height) :
    (diamond : Preset ℝ).sketch.ComesTo env
      (env "ir" = width * 3 / 4
        ∧ env "ib" = height * 3 / 4)
      ⟨width / 4, height / 4, env "ir", env "ib"⟩
      [⟨0, height / 2⟩, ⟨width / 2, 0⟩, ⟨width, height / 2⟩, ⟨width / 2, height⟩] := by
  conv => arg 1; cbv
  simp [Sketch.ComesTo, hs.sizes]

theorem parallelogram_sketch (hs : Setting env width height) :
    (parallelogram : Preset ℝ).sketch.ComesTo env
      (env "maxAdj" = 100000 * width / env "ss"
        ∧ env "a" = Operator.pin.apply 0 (env "adj") (env "maxAdj")
        ∧ env "x1" = env "ss" * env "a" / 200000
        ∧ env "x2" = env "ss" * env "a" / 100000
        ∧ env "x6" = width - env "x2"
        ∧ env "x5" = width - env "x1"
        ∧ env "q1" = 5 * env "a" / env "maxAdj"
        ∧ env "q2" = (1 + env "q1") / 12
        ∧ env "il" = env "q2" * width
        ∧ env "it" = env "q2" * height
        ∧ env "ir" = width - env "il"
        ∧ env "ib" = height - env "it")
      ⟨env "il", env "it", env "ir", env "ib"⟩
      [⟨0, height⟩, ⟨env "x2", 0⟩, ⟨width, 0⟩, ⟨env "x6", height⟩] := by
  conv => arg 1; cbv
  simp [Sketch.ComesTo, hs.sizes]

theorem trapezoid_sketch (hs : Setting env width height) :
    (trapezoid : Preset ℝ).sketch.ComesTo env
      (env "maxAdj" = 50000 * width / env "ss"
        ∧ env "a" = Operator.pin.apply 0 (env "adj") (env "maxAdj")
        ∧ env "x1" = env "ss" * env "a" / 200000
        ∧ env "x2" = env "ss" * env "a" / 100000
        ∧ env "x3" = width - env "x2"
        ∧ env "x4" = width - env "x1"
        ∧ env "il" = width / 3 * env "a" / env "maxAdj"
        ∧ env "it" = height / 3 * env "a" / env "maxAdj"
        ∧ env "ir" = width - env "il")
      ⟨env "il", env "it", env "ir", height⟩
      [⟨0, height⟩, ⟨env "x2", 0⟩, ⟨env "x3", 0⟩, ⟨width, height⟩] := by
  conv => arg 1; cbv
  simp [Sketch.ComesTo, hs.sizes]

theorem hexagon_sketch (hs : Setting env width height) :
    (hexagon : Preset ℝ).sketch.ComesTo env
      (env "maxAdj" = 50000 * width / env "ss"
        ∧ env "a" = Operator.pin.apply 0 (env "adj") (env "maxAdj")
        ∧ env "shd2" = height / 2 * env "vf" / 100000
        ∧ env "x1" = env "ss" * env "a" / 100000
        ∧ env "x2" = width - env "x1"
        ∧ env "dy1" = env "shd2" * Real.sin (3600000 / 60000 * (Real.pi / 180))
        ∧ env "y1" = height / 2 - env "dy1"
        ∧ env "y2" = height / 2 + env "dy1"
        ∧ env "q1" = -env "maxAdj" / 2
        ∧ env "q2" = env "a" + env "q1"
        ∧ env "q3" = (if 0 < env "q2" then 4 else 2)
        ∧ env "q4" = (if 0 < env "q2" then 3 else 2)
        ∧ env "q5" = (if 0 < env "q1" then 24 else 0)
        ∧ env "q6" = (env "a" + env "q5") / env "q1"
        ∧ env "q7" = env "q6" * env "q4" / -1
        ∧ env "q8" = env "q3" + env "q7"
        ∧ env "il" = width * env "q8" / 24
        ∧ env "it" = height * env "q8" / 24
        ∧ env "ir" = width - env "il"
        ∧ env "ib" = height - env "it")
      ⟨env "il", env "it", env "ir", env "ib"⟩
      [⟨0, height / 2⟩, ⟨env "x1", env "y1"⟩, ⟨env "x2", env "y1"⟩, ⟨width, height / 2⟩,
        ⟨env "x2", env "y2"⟩, ⟨env "x1", env "y2"⟩] := by
  conv => arg 1; cbv
  simp [Sketch.ComesTo, hs.sizes]

theorem octagon_sketch (hs : Setting env width height) :
    (octagon : Preset ℝ).sketch.ComesTo env
      (env "a" = Operator.pin.apply 0 (env "adj") 50000
        ∧ env "x1" = env "ss" * env "a" / 100000
        ∧ env "x2" = width - env "x1"
        ∧ env "y2" = height - env "x1"
        ∧ env "il" = env "x1" / 2
        ∧ env "ir" = width - env "il"
        ∧ env "ib" = height - env "il")
      ⟨env "il", env "il", env "ir", env "ib"⟩
      [⟨0, env "x1"⟩, ⟨env "x1", 0⟩, ⟨env "x2", 0⟩, ⟨width, env "x1"⟩, ⟨width, env "y2"⟩, ⟨env "x2", height⟩,
        ⟨env "x1", height⟩, ⟨0, env "y2"⟩] := by
  conv => arg 1; cbv
  simp [Sketch.ComesTo, hs.sizes]

theorem plus_sketch (hs : Setting env width height) :
    (plus : Preset ℝ).sketch.ComesTo env
      (env "a" = Operator.pin.apply 0 (env "adj") 50000
        ∧ env "x1" = env "ss" * env "a" / 100000
        ∧ env "x2" = width - env "x1"
        ∧ env "y2" = height - env "x1"
        ∧ env "d" = width - height
        ∧ env "il" = (if 0 < env "d" then 0 else env "x1")
        ∧ env "ir" = (if 0 < env "d" then width else env "x2")
        ∧ env "it" = (if 0 < env "d" then env "x1" else 0)
        ∧ env "ib" = (if 0 < env "d" then env "y2" else height))
      ⟨env "il", env "it", env "ir", env "ib"⟩
      [⟨0, env "x1"⟩, ⟨env "x1", env "x1"⟩, ⟨env "x1", 0⟩, ⟨env "x2", 0⟩, ⟨env "x2", env "x1"⟩,
        ⟨width, env "x1"⟩, ⟨width, env "y2"⟩, ⟨env "x2", env "y2"⟩, ⟨env "x2", height⟩, ⟨env "x1", height⟩,
        ⟨env "x1", env "y2"⟩, ⟨0, env "y2"⟩] := by
  conv => arg 1; cbv
  simp [Sketch.ComesTo, hs.sizes]

theorem homePlate_sketch (hs : Setting env width height) :
    (homePlate : Preset ℝ).sketch.ComesTo env
      (env "maxAdj" = 100000 * width / env "ss"
        ∧ env "a" = Operator.pin.apply 0 (env "adj") (env "maxAdj")
        ∧ env "dx1" = env "ss" * env "a" / 100000
        ∧ env "x1" = width - env "dx1"
        ∧ env "ir" = (env "x1" + width) / 2)
      ⟨0, 0, env "ir", height⟩
      [⟨0, 0⟩, ⟨env "x1", 0⟩, ⟨width, height / 2⟩, ⟨env "x1", height⟩, ⟨0, height⟩] := by
  conv => arg 1; cbv
  simp [Sketch.ComesTo, hs.sizes]

theorem chevron_sketch (hs : Setting env width height) :
    (chevron : Preset ℝ).sketch.ComesTo env
      (env "maxAdj" = 100000 * width / env "ss"
        ∧ env "a" = Operator.pin.apply 0 (env "adj") (env "maxAdj")
        ∧ env "x1" = env "ss" * env "a" / 100000
        ∧ env "x2" = width - env "x1"
        ∧ env "dx" = env "x2" - env "x1"
        ∧ env "il" = (if 0 < env "dx" then env "x1" else 0)
        ∧ env "ir" = (if 0 < env "dx" then env "x2" else width))
      ⟨env "il", 0, env "ir", height⟩
      [⟨0, 0⟩, ⟨env "x2", 0⟩, ⟨width, height / 2⟩, ⟨env "x2", height⟩, ⟨0, height⟩, ⟨env "x1", height / 2⟩] := by
  conv => arg 1; cbv
  simp [Sketch.ComesTo, hs.sizes]

theorem rightArrow_sketch (hs : Setting env width height) :
    (rightArrow : Preset ℝ).sketch.ComesTo env
      (env "maxAdj2" = 100000 * width / env "ss"
        ∧ env "a1" = Operator.pin.apply 0 (env "adj1") 100000
        ∧ env "a2" = Operator.pin.apply 0 (env "adj2") (env "maxAdj2")
        ∧ env "dx1" = env "ss" * env "a2" / 100000
        ∧ env "x1" = width - env "dx1"
        ∧ env "dy1" = height * env "a1" / 200000
        ∧ env "y1" = height / 2 - env "dy1"
        ∧ env "y2" = height / 2 + env "dy1"
        ∧ env "dx2" = env "y1" * env "dx1" / (height / 2)
        ∧ env "x2" = env "x1" + env "dx2")
      ⟨0, env "y1", env "x2", env "y2"⟩
      [⟨0, env "y1"⟩, ⟨env "x1", env "y1"⟩, ⟨env "x1", 0⟩, ⟨width, height / 2⟩, ⟨env "x1", height⟩,
        ⟨env "x1", env "y2"⟩, ⟨0, env "y2"⟩] := by
  conv => arg 1; cbv
  simp [Sketch.ComesTo, hs.sizes]

theorem line_sketch (hs : Setting env width height) :
    (line : Preset ℝ).sketch.ComesTo env
      True
      ⟨0, 0, width, height⟩
      [⟨0, 0⟩, ⟨width, height⟩] := by
  conv => arg 1; cbv
  simp [Sketch.ComesTo, hs.sizes]

theorem can_sketch (hs : Setting env width height) :
    (can : Preset ℝ).sketch.ComesTo env
      (env "maxAdj" = 50000 * height / env "ss"
        ∧ env "a" = Operator.pin.apply 0 (env "adj") (env "maxAdj")
        ∧ env "y1" = env "ss" * env "a" / 200000
        ∧ env "y2" = env "y1" + env "y1"
        ∧ env "y3" = height - env "y1")
      ⟨0, env "y2", width, env "y3"⟩
      [⟨0, env "y1"⟩, ⟨width, env "y3"⟩, ⟨0, env "y1"⟩, ⟨width, env "y1"⟩, ⟨width, env "y3"⟩, ⟨0, env "y1"⟩] := by
  conv => arg 1; cbv
  simp [Sketch.ComesTo, hs.sizes]

theorem flowChartProcess_sketch (hs : Setting env width height) :
    (flowChartProcess : Preset ℝ).sketch.ComesTo env
      True
      ⟨0, 0, width, height⟩
      [⟨0, 0⟩, ⟨1, 0⟩, ⟨1, 1⟩, ⟨0, 1⟩] := by
  conv => arg 1; cbv
  simp [Sketch.ComesTo, hs.sizes]

theorem flowChartDecision_sketch (hs : Setting env width height) :
    (flowChartDecision : Preset ℝ).sketch.ComesTo env
      (env "ir" = width * 3 / 4
        ∧ env "ib" = height * 3 / 4)
      ⟨width / 4, height / 4, env "ir", env "ib"⟩
      [⟨0, 1⟩, ⟨1, 0⟩, ⟨2, 1⟩, ⟨1, 2⟩] := by
  conv => arg 1; cbv
  simp [Sketch.ComesTo, hs.sizes]

theorem flowChartDocument_sketch (hs : Setting env width height) :
    (flowChartDocument : Preset ℝ).sketch.ComesTo env
      (env "y1" = height * 17322 / 21600
        ∧ env "y2" = height * 20172 / 21600)
      ⟨0, 0, width, env "y1"⟩
      [⟨0, 0⟩, ⟨21600, 0⟩, ⟨21600, 17322⟩] := by
  conv => arg 1; cbv
  simp [Sketch.ComesTo, hs.sizes]

end ShapeGeometry.Catalogue
