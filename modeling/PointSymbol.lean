import PointSymbol.Decimal.ReadBack
import PointSymbol.Proofs.Color.Parse
import PointSymbol.Proofs.Shader.CornerSelection
import PointSymbol.Quad.Vertex
import PointSymbol.Proofs.Symbol.FirstFault
import PointSymbol.Proofs.Glsl.Runs
import PointSymbol.Proofs.Glsl.Scoping
import PointSymbol.Proofs.Shader.Identity
import PointSymbol.Proofs.Shader.WellFormed
import PointSymbol.Proofs.Binary.Agreement
import PointSymbol.Proofs.Symbol.Agreement
import PointSymbol.Proofs.Shader.Agreement
import PointSymbol.Proofs.Shader.Records
import PointSymbol.Proofs.Color.ReadBack
import PointSymbol.Proofs.Color.Range
import PointSymbol.Proofs.Shader.TextColor
import PointSymbol.Proofs.Geometry.Triangle
import PointSymbol.Proofs.Quad.Tiling
import PointSymbol.Proofs.Shader.NormalForm
import PointSymbol.Proofs.Color.Faults
import PointSymbol.Proofs.Quad.Centering
import PointSymbol.Proofs.Color.Accuracy
import PointSymbol.Proofs.Color.Names
import PointSymbol.Proofs.Color.Spelling
import PointSymbol.Proofs.Quad.Mirror
import PointSymbol.Proofs.Style.LastCall
import PointSymbol.Proofs.Quad.VertexBuffer
import PointSymbol.Proofs.Color.Messages
import PointSymbol.Proofs.Color.HexSlices
import PointSymbol.Proofs.Shader.ShortestText
