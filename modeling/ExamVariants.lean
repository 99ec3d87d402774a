import ExamVariants.Document.JsonText
import ExamVariants.Main
import ExamVariants.Stored
import ExamVariants.Proofs.Exam.Draw
import ExamVariants.Proofs.Latex.AnswerKey
import ExamVariants.Proofs.Latex.ChoiceMark
import ExamVariants.Proofs.Latex.Template
import ExamVariants.Proofs.Markup.Run
import ExamVariants.Proofs.Moodle.LearnerBank
import ExamVariants.Proofs.Question.Reordering
import ExamVariants.Proofs.Generate.Planning
import ExamVariants.Proofs.Output.Places
import ExamVariants.Proofs.FileTree.Writes
import ExamVariants.Proofs.Typeset.Traces
import ExamVariants.Proofs.Generate.Documents
import ExamVariants.Proofs.Generate.Isolation
import ExamVariants.Proofs.Generate.Outputs
import ExamVariants.Proofs.Markup.Recursion
import ExamVariants.Proofs.Markup.Forest
import ExamVariants.Proofs.Xml.Characters
import ExamVariants.Proofs.Moodle.Html
import ExamVariants.Proofs.Moodle.Elements
import ExamVariants.Proofs.Moodle.Legality
import ExamVariants.Proofs.Moodle.Category
import ExamVariants.Proofs.Moodle.SingleAnswer
import ExamVariants.Proofs.Style.Marks
import ExamVariants.Proofs.Latex.Reading
import ExamVariants.Proofs.Moodle.Reading
import ExamVariants.Proofs.Specification.Acceptance
import ExamVariants.Proofs.Specification.Diagnosis
import ExamVariants.Proofs.Generate.DryRun
import ExamVariants.Proofs.Stored.RoundTrip
import ExamVariants.Proofs.Generator.Fairness
import ExamVariants.Proofs.Shuffle.Permutation
import ExamVariants.Proofs.Exam.Seeds
import ExamVariants.Proofs.Exam.Limits
import ExamVariants.Proofs.Markup.LeafText
import ExamVariants.Proofs.Latex.InlineCode
import ExamVariants.Proofs.Latex.CodeBlock
import ExamVariants.Proofs.Latex.Layouts
import ExamVariants.Proofs.Latex.Macros
import ExamVariants.Proofs.Latex.Demands
import ExamVariants.Proofs.Style.Grouping
import ExamVariants.Proofs.Moodle.Refusal
import ExamVariants.Proofs.Specification.DefaultPoints
import ExamVariants.Proofs.Specification.LastEntry
import ExamVariants.Proofs.Generator.Cycle
import ExamVariants.Proofs.Segment.PlainText
import ExamVariants.Proofs.Output.SafeNames
import ExamVariants.Proofs.Typeset.Verdict
import ExamVariants.Proofs.Generator.Bytes
import ExamVariants.Proofs.Markup.Matching
import ExamVariants.Proofs.Markup.WorkStack
