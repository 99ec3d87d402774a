import ExamVariants.Document.Json
import ExamVariants.Document.Toml
import ExamVariants.Document.Yaml
import ExamVariants.FileTree
import ExamVariants.Specification.Decode

namespace ExamVariants.Specification

open Document

inductive FileFormat where
  | json
  | toml
  | yaml
  deriving DecidableEq, Repr, Inhabited

namespace FileFormat

def name : FileFormat → String
  | json => "json"
  | toml => "toml"
  | yaml => "yaml"

def ofExtension? (extension : String) : Option FileFormat :=
  match Text.lower extension with
  | "json" => some json
  | "toml" => some toml
  | "yaml" | "yml" => some yaml
  | _ => none

end FileFormat

inductive LoadError where
  | fileNotFound (path : String)
  | notText (path : String)
  | unsupportedFormat (path extension : String)
  | undecodable (path : String) (format : FileFormat) (reason : String)
  deriving DecidableEq, Repr

namespace LoadError

def notTextReason : String := "stream did not contain valid UTF-8"

def formatName : FileFormat → String
  | .json => "JSON"
  | .toml => "TOML"
  | .yaml => "YAML"

def message : LoadError → String
  | fileNotFound path => s!"specification file not found: {path}"
  | notText path => s!"failed to read file {path}: {notTextReason}"
  | unsupportedFormat path extension =>
    s!"unsupported specification format '{extension}' for {path} " ++
      "(expected .json, .toml, .yaml or .yml)"
  | undecodable path format reason =>
    s!"failed to decode {formatName format} {path}: {reason}"

def chain : LoadError → String
  | notText path => (notText path).message ++ ": " ++ notTextReason
  | undecodable path format reason => (undecodable path format reason).message ++ ": " ++ reason
  | e => e.message

end LoadError

/-- The format of a file by the extension of its path. -/
def formatOf (path : String) : Except LoadError FileFormat :=
  let extension := (Path.extension? path).getD ""
  match FileFormat.ofExtension? extension with
  | some f => .ok f
  | none => .error (.unsupportedFormat path extension)

def readTrees (format : FileFormat) (text : String) : Except String (List Value) :=
  match format with
  | .json => ((Json.read text).map ([·])).mapError Json.Error.message
  | .toml => ((Toml.read text).map ([·])).mapError Toml.Problem.message
  | .yaml => (Yaml.read text).mapError Yaml.Problem.message

def load (files : FileTree) (path : String) : Except LoadError (List Value) := do
  match files.read? path with
  | none => throw (.fileNotFound path)
  | some content =>
    let format ← formatOf path
    match content with
    | .binary _ => throw (.notText path)
    | .text text =>
      let trees ← (readTrees format text).mapError (LoadError.undecodable path format)
      return trees.flatMap splitDocuments

end ExamVariants.Specification
