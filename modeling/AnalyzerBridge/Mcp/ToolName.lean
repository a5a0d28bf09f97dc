/-
The tools on offer.

Ten work through the analysis backend, and four run a tool or read a file.
-/
import AnalyzerBridge.Bytes

namespace AnalyzerBridge.Mcp

/-- A tool that a client may call. -/
inductive Tool where
  | findDefinition | findReferences | getDiagnostics | workspaceSymbols | renameSymbol
  | extractFunction | inlineFunction | changeSignature | organizeImports | validateLifetimes
  | formatCode | analyzeManifest | runCargoCheck | applyClippySuggestions
  deriving DecidableEq, Repr

namespace Tool

/-- Every tool, in the order they are listed. -/
def all : List Tool :=
  [findDefinition, findReferences, getDiagnostics, workspaceSymbols, renameSymbol, extractFunction,
    inlineFunction, changeSignature, organizeImports, validateLifetimes, formatCode,
    analyzeManifest, runCargoCheck, applyClippySuggestions]

/-- The name under which a tool is called. -/
def name : Tool → Bytes
  | findDefinition => ascii "find_definition"
  | findReferences => ascii "find_references"
  | getDiagnostics => ascii "get_diagnostics"
  | workspaceSymbols => ascii "workspace_symbols"
  | renameSymbol => ascii "rename_symbol"
  | extractFunction => ascii "extract_function"
  | inlineFunction => ascii "inline_function"
  | changeSignature => ascii "change_signature"
  | organizeImports => ascii "organize_imports"
  | validateLifetimes => ascii "validate_lifetimes"
  | formatCode => ascii "format_code"
  | analyzeManifest => ascii "analyze_manifest"
  | runCargoCheck => ascii "run_cargo_check"
  | applyClippySuggestions => ascii "apply_clippy_suggestions"

/-- The tool of a name. -/
def ofName? (s : Bytes) : Option Tool := all.find? (·.name = s)

end Tool

end AnalyzerBridge.Mcp
