/-
Rules about unused declarations.

Six rules report declarations whose name is used nowhere else.  Each looks for its own kind of
declaration and computes in its own way where the declared name stands.  What they promise is the
same: the declarations reported are those whose name is a word of the text only once.
-/
import SnippetLint.Proofs.Rules.CSharp
import SnippetLint.Proofs.Rules.Cpp
import SnippetLint.Proofs.Rules.Java
import SnippetLint.Proofs.Rules.JavaScript
import SnippetLint.Proofs.Rules.Python
import SnippetLint.Proofs.Rules.TypeScript

namespace SnippetLint

open Finding

/-- **Unused declarations are reported exactly.**  Variables are declared with their name; an import
binds the last part of its path in Java, and in Python an alias, the first part of a module's path,
or the last word of each entry in a list of names. -/
theorem unusedDeclarations_exact :
    Check.ReportsUnused JavaScript.noUnusedVars (JavaScript.declaration.findGroups 1) Span.text
        (fun t s => atOffset t s.start ("Unused variable detected: " ++ s.string)) ∧
      Check.ReportsUnused TypeScript.noUnusedVars (TypeScript.blockDeclaration.findGroups 1)
        Span.text (fun t s =>
          atOffset t s.start ("Variable \"" ++ s.string ++ "\" is declared but not used.")) ∧
      Check.ReportsUnused Cpp.unusedVariable (Cpp.variableDeclaration.findGroups 1) Span.text
        (fun t s => atOffset t s.start ("Unused variable: " ++ s.string)) ∧
      Check.ReportsUnused CSharp.unusedVariable (CSharp.variableDeclaration.findGroups 1) Span.text
        (fun t s => atOffset t s.start ("Unused variable detected: " ++ s.string)) ∧
      Check.ReportsUnused Java.unusedImport (Java.importLine.findGroups 1)
        (fun path => Java.simpleName path.text)
        (fun t path => atOffset t path.start ("Unused import: " ++ path.string)) ∧
      Check.ReportsUnused Python.unusedImport Python.bindings (·.name.text)
        (fun t b => atOffset t b.name.start
          ("Unused import detected: " ++ String.ofList b.imported ++ ".")) ∧
      ∀ t, (Python.bindings t).map (·.name.text) =
        ((Python.importLine.findAll t).filterMap fun m =>
          (m.group? 1).map fun path => ((m.group? 2).getD path).text.takeWhile (· != '.'))
        ++ (Python.fromImport.findGroups 1 t).flatMap fun names =>
          ((Text.pieces (· == ',') names.text).map Python.lastWord).filter fun w => !w.isEmpty :=
  ⟨JavaScript.noUnusedVars_exact, TypeScript.noUnusedVars_exact, Cpp.unusedVariable_exact,
    CSharp.unusedVariable_exact, Java.unusedImport_exact, Python.unusedImport_exact,
    Python.names_bindings⟩

end SnippetLint
