import ShaderPipeline.Gpu.RenderState
import ShaderPipeline.Gpu.VertexBuffer
import ShaderPipeline.Proofs.Conditional.Simulation
import ShaderPipeline.Proofs.Pipeline.BufferSizes
import ShaderPipeline.Proofs.Program.Prelude
import ShaderPipeline.Proofs.Vertex.Operations
import ShaderPipeline.Proofs.Condition.Expression
import ShaderPipeline.Proofs.Condition.Spelling
import ShaderPipeline.Proofs.Condition.Precedence
import ShaderPipeline.Proofs.Condition.Evaluation
import ShaderPipeline.Proofs.Condition.Acceptance
import ShaderPipeline.Proofs.Schema.Sizes
import ShaderPipeline.Proofs.Memory.RuleOrder
import ShaderPipeline.Proofs.Vertex.SectionReading
import ShaderPipeline.Proofs.Vertex.SectionOverflow
import ShaderPipeline.Proofs.Vertex.SectionLayouts
import ShaderPipeline.Proofs.Schema.RoundTrip
import ShaderPipeline.Proofs.Schema.DeclarationOrder
import ShaderPipeline.Proofs.Definition.Sections
import ShaderPipeline.Proofs.Defines.FiniteMap
import ShaderPipeline.Proofs.Pipeline.Outcomes
import ShaderPipeline.Proofs.Include.Stripped
import ShaderPipeline.Proofs.Include.Idempotence
import ShaderPipeline.Proofs.Include.Course
import ShaderPipeline.Proofs.Conditional.ControlFlow
import ShaderPipeline.Proofs.Include.Cycles
import ShaderPipeline.Proofs.Conditional.Leaks
import ShaderPipeline.Proofs.Conditional.Runs
import ShaderPipeline.Proofs.Vertex.LosslessGroups
import ShaderPipeline.Proofs.Text.Pieces
import ShaderPipeline.Proofs.Macro.Course
import ShaderPipeline.Proofs.Macro.References
import ShaderPipeline.Proofs.Macro.Cycles
import ShaderPipeline.Proofs.Conditional.Definedness
import ShaderPipeline.Proofs.Include.Missing
import ShaderPipeline.Proofs.Vertex.ShaderTerms
import ShaderPipeline.Proofs.Vertex.SectionWriting
import ShaderPipeline.Proofs.Vertex.FilledGroups
import ShaderPipeline.Proofs.Vertex.Rejections
import ShaderPipeline.Proofs.Vertex.InputNames
import ShaderPipeline.Proofs.Memory.AddedStructs
import ShaderPipeline.Proofs.Text.CleanDocument
import ShaderPipeline.Proofs.Text.Replacement
import ShaderPipeline.Proofs.Schema.NestedStructs
import ShaderPipeline.Proofs.State.LastSettings
import ShaderPipeline.Proofs.Gpu.VertexBuffers
import ShaderPipeline.Proofs.Reports
import ShaderPipeline.Proofs.Schema.Warnings
import ShaderPipeline.Proofs.Vertex.SectionReports
import ShaderPipeline.Proofs.Conditional.Reports
import ShaderPipeline.Proofs.Definition.DocumentReports
import ShaderPipeline.Proofs.Pipeline.Reports
import ShaderPipeline.Proofs.Vertex.GroupCounts
import ShaderPipeline.Proofs.Vertex.Interruptions
import ShaderPipeline.Proofs.Vertex.ReaderModes
