import AsmLens.Diagnostic.Collected
import AsmLens.Statement

/-!
The rule for labels. A line whose head is in no vocabulary has to be a label declaration: the word,
a colon, and nothing else. `LabelFindings.ofStatements` goes through the statements and only records
what it finds; `LabelFindings.settle` then gives the declared heads their category, so no token
changes while lines are still being judged.
-/

namespace AsmLens

/-- What the rule says of one line. -/
inductive LabelVerdict where
  /-- The line is headed by no label, as far as the rule can tell. -/
  | notConcerned
  /-- The line declares a label. -/
  | declaration
  /-- The line breaks the rule. -/
  | violation (diagnostic : Diagnostic)
  deriving DecidableEq, Repr

/-- Judges a line. After a head of no vocabulary comes a colon alone; two tokens or more are too
much, and anything else is too little. -/
def Statement.labelVerdict (i : Statement) : Checked LabelVerdict :=
  match i.tokens with
  | [] => .ok .notConcerned
  | head :: rest =>
      if head.category = .unknown then
        match rest with
        | [] => return .violation (← Diagnostic.missingColon head)
        | [second] =>
            if second.isColon then .ok .declaration
            else return .violation (← Diagnostic.missingColon head)
        | second :: third :: more =>
            let last := (third :: more).getLast (List.cons_ne_nil third more)
            return .violation (← Diagnostic.contentAfterLabel second last)
      else .ok .notConcerned

/-- The findings of one pass over the statements. -/
structure LabelFindings where
  /-- The places of the declared heads in the token list, in line order. -/
  declarations : Array Nat := #[]
  diagnostics : CollectedDiagnostics := {}
  deriving DecidableEq, Repr

namespace LabelFindings

/-- Enters the verdict on a line. -/
def record (findings : LabelFindings) (i : Statement) : LabelVerdict → LabelFindings
  | .notConcerned => findings
  | .declaration => { findings with declarations := findings.declarations.push i.offset }
  | .violation d => { findings with diagnostics := findings.diagnostics.push d }

/-- Judges the lines one after another; a violation does not stop the pass. -/
def ofStatements (statements : List Statement) : Checked LabelFindings :=
  statements.foldlM (fun findings i => return findings.record i (← i.labelVerdict)) {}

/-- The token at a place. -/
def tokenAt (tokens : Array Token) (i : Nat) : Checked Token :=
  match tokens[i]? with
  | some token => .ok token
  | none => .error .noSuchToken

/-- The names of the declared labels, in line order. -/
def names (findings : LabelFindings) (tokens : List Token) : Checked (List String) :=
  let places := tokens.toArray
  findings.declarations.toList.mapM fun i => return (← tokenAt places i).text

/-- A token as the head of a label declaration. -/
def declared (token : Token) : Token :=
  { token with category := .label, modifiers := token.modifiers.union .declaration }

/-- Makes the token at a place a declared label. -/
def settleAt (tokens : Array Token) (i : Nat) : Checked (Array Token) := do
  let token ← tokenAt tokens i
  if token.category = .unknown then .ok (tokens.setIfInBounds i (declared token))
  else .error .labelAlreadySettled

/-- The tokens with every declared head made a label. -/
def settle (findings : LabelFindings) (tokens : List Token) : Checked (List Token) :=
  (findings.declarations.toList.foldlM settleAt tokens.toArray).map Array.toList

end LabelFindings

end AsmLens
