import ShapeGeometry.Proofs.Formula.Arity
import ShapeGeometry.Proofs.Guide.Order
import ShapeGeometry.Proofs.Path.CurrentPoint
import ShapeGeometry.Proofs.Path.Pen
import ShapeGeometry.Proofs.Path.Stretching
import ShapeGeometry.Proofs.Shape.Catalogue.Hexagon
import ShapeGeometry.Proofs.Shape.Drawing
import ShapeGeometry.Proofs.Shape.Numbers
import ShapeGeometry.Proofs.Shape.Overrides
import ShapeGeometry.Proofs.Shape.Routes
import ShapeGeometry.Proofs.Shape.Scoping
import ShapeGeometry.Proofs.Svg.ArcEnds
import ShapeGeometry.Proofs.Svg.Arcs
import ShapeGeometry.Proofs.Svg.Decoding
import ShapeGeometry.Proofs.Svg.NumberGrammar
import ShapeGeometry.Proofs.Svg.Opening
import ShapeGeometry.Proofs.Svg.Subpath
import ShapeGeometry.Proofs.Svg.Sweep
