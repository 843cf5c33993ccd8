import PlaneSketch.Problem.Description
import PlaneSketch.Problem.Solve
import PlaneSketch.Sketch.Build
import PlaneSketch.Sketch.Reading
import PlaneSketch.Proofs.ArenaFrame
import PlaneSketch.Proofs.Enumeration
import PlaneSketch.Proofs.Edits
import PlaneSketch.Proofs.Solving
import PlaneSketch.Proofs.History
import PlaneSketch.Proofs.Building
import PlaneSketch.Proofs.FreeParameters
import PlaneSketch.Proofs.Generation
import PlaneSketch.Proofs.Rollback
import PlaneSketch.Proofs.Commit
import PlaneSketch.Proofs.Finiteness
import PlaneSketch.Proofs.Objective
import PlaneSketch.Proofs.Comparison
import PlaneSketch.Proofs.SearchLogic
import PlaneSketch.Proofs.Descending
import PlaneSketch.Proofs.Improvement
import PlaneSketch.Proofs.Naming
import PlaneSketch.Proofs.Permanence
import PlaneSketch.Proofs.Handles
import PlaneSketch.Proofs.Refusals
import PlaneSketch.Proofs.CheckedWrites
import PlaneSketch.Proofs.Fixing
import PlaneSketch.Proofs.Phrase
import PlaneSketch.Proofs.Numerals
import PlaneSketch.Proofs.Grammar
import PlaneSketch.Proofs.SketchText
import PlaneSketch.Proofs.Scoping
import PlaneSketch.Proofs.Mirror
import PlaneSketch.Proofs.Declaring
import PlaneSketch.Proofs.Requiring
import PlaneSketch.Proofs.BuiltSketch
import PlaneSketch.Proofs.Reordering
import PlaneSketch.Proofs.Restarting
import PlaneSketch.Proofs.Perseverance
import PlaneSketch.Proofs.AddedLines
import PlaneSketch.Proofs.Dependence
import PlaneSketch.Proofs.Warnings
import PlaneSketch.Proofs.FirstSimplex
import PlaneSketch.Proofs.CanonicalAngle
import PlaneSketch.Proofs.DoubleBits
import PlaneSketch.Proofs.ExactValue
import PlaneSketch.Proofs.Rounding
import PlaneSketch.Proofs.RoundedSum
import PlaneSketch.Proofs.RemainderValue
import PlaneSketch.Proofs.RoundedAngle
