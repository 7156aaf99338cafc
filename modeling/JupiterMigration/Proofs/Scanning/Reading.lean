import JupiterMigration.Proofs.Grammar.Names
import JupiterMigration.Proofs.Reading.Statements
import JupiterMigration.Proofs.Scanning
import JupiterMigration.Proofs.Tokens.Words

/-!
# Scanning the methods of a file

In a file that has been read, each call of a rule mentions the rule: the receiver of the call is cut
into the tokens that its text suggests, and the grammar reads the last of them as a name.  So the
methods of a file are planned as they split (`scansAsSplit_of_parse`).
-/

namespace JupiterMigration

namespace Java

/-- Whether a text can name a variable where an expression begins. -/
def isVariableName (text : String) : Bool :=
  isWord text && !Category.operandWords.contains text

namespace Call

/-- A call with a receiver is the last link of a chain of selections. -/
theorem exists_of_ofStatement?
    {phrase : Phrase}
    {call : JupiterMigration.Call}
    {receiver : String}
    (found : ofStatement? phrase = some call)
    (target_eq : call.target = some receiver) :
    ∃ front last, Within (.node .primary (front ++ [last])) phrase ∧
      (Written phrase → Written (.node .primary (front ++ [last]))) ∧
      Phrase.textOfAll front = receiver := by
  unfold ofStatement? at found
  split at found
  · next expression rest =>
      unfold ofExpression? at found
      split at found
      · next links =>
          split at found
          · next parts last_eq =>
              cases found
              obtain ⟨front, rfl⟩ := List.getLast?_eq_some_iff.mp last_eq
              rw [List.dropLast_concat] at target_eq
              unfold targetOf at target_eq
              split at target_eq
              · cases target_eq
              · cases target_eq
                have inExpression := Within.of_mem
                  (List.mem_singleton_self (.node .primary (front ++ [.node .call parts])))
                  .expression
                have isFirst {expression : Phrase} : expression ∈ expression :: rest :=
                  List.mem_cons_self
                exact ⟨front, _, inExpression.trans (.of_mem isFirst _),
                  fun written => written.2.1.2.1, rfl⟩
          · cases found
      · cases found
  · cases found

end Call

/-- The receiver of a call uses the name of a variable that it is, alone or of the object itself. -/
theorem mem_allNamesOf_receiver
    {source tail name : String}
    {tokens : List Token}
    {front : List Phrase}
    {last : Phrase}
    (scanned : Token.scan source = some (tokens, tail))
    (inside : Phrase.tokensOfAll front <:+: tokens)
    (written : Written (.node .primary (front ++ [last])))
    (isName : isVariableName name = true)
    (isReceiver : Phrase.textOfAll front = name ∨ Phrase.textOfAll front = "this." ++ name) :
    name ∈ Phrase.allNamesOf (front ++ [last]) := by
  simp only [isVariableName, Bool.and_eq_true, Bool.not_eq_true', List.contains_eq_mem,
    decide_eq_false_iff_not] at isName
  obtain ⟨spelled, noKeyword⟩ := isName
  have tokens_eq : Phrase.tokensOfAll (front ++ [last]) =
      Phrase.tokensOfAll front ++ Phrase.tokensOfAll [last] := Phrase.tokensOfAll_append _ _
  cases isReceiver with
  | inl alone =>
      have alone_eq : textOf (Phrase.tokensOfAll front) = name := alone
      obtain ⟨gap, front_eq⟩ := eq_word_of_scan scanned inside (alone_eq ▸ spelled)
      rw [front_eq, alone_eq] at tokens_eq
      exact mem_allNamesOf_primary [] _ written tokens_eq (.inl rfl) rfl noKeyword
  | inr selected =>
      have selected_eq : textOf (Phrase.tokensOfAll front) = "this" ++ "." ++ name := by
        rw [String.append_assoc, ← Phrase.textOfAll, selected, ← String.append_assoc]
        rfl
      obtain ⟨gap, front_eq⟩ := eq_selection_of_scan scanned inside (by decide) spelled selected_eq
      rw [front_eq] at tokens_eq
      exact mem_allNamesOf_primary [⟨gap, "this", .word⟩, ⟨"", ".", .symbol⟩] ⟨"", name, .word⟩
        written tokens_eq (.inr rfl) rfl noKeyword

end Java

namespace SourceUnit

/-- The methods of a file, also those of classes in others. -/
def methods (unit : SourceUnit) : List Method :=
  unit.walk.filterMap fun node =>
    match node with
    | .member member => member.method?
    | _ => none

theorem mem_walkAll_of_mem_methods
    {unit : SourceUnit}
    {decl : Method}
    (inside : decl ∈ unit.methods) :
    Node.member (.method decl) ∈ Member.walkAll unit.members := by
  obtain ⟨node, isNode, found⟩ := List.mem_filterMap.mp inside
  cases isNode with
  | head => cases found
  | tail _ below =>
      split at found
      · next member =>
          cases member with
          | method other =>
              cases found
              exact below
          | _ => cases found
      · cases found

end SourceUnit

namespace ExpectedException

open Java
open Member (bodyStatements)

/-- In a file, each call of a rule mentions the rule. -/
theorem mentions_of_isRuleCall_of_parse
    {source rule : String}
    {path : Option String}
    {next : Nat}
    {result : SourceUnit × Nat}
    {decl : Method}
    {statement : Statement}
    (parsed : SourceUnit.parse source path next = .ok result)
    (isMethod : Node.member (.method decl) ∈ Member.walkAll result.1.members)
    (isName : isVariableName rule = true)
    (inside : statement ∈ bodyStatements decl)
    (isCall : IsRuleCall rule statement) : mentions rule statement = true := by
  obtain ⟨tokens, tail, phrase, body, scanned, within, written, isStatement, read_eq⟩ :=
    SourceUnit.isRead_of_parse written_of_mem_parts
      (fun readFound => writtenAll_iff.mp (writtenAll_of_readProgram readFound)) parsed isMethod
      inside
  have call_eq : statement.call = Call.ofStatement? phrase := congrArg (·.call) read_eq
  have references_eq : statement.references = namesIn [phrase] := congrArg (·.references) read_eq
  obtain ⟨call, found, target_eq⟩ := isCall
  rw [call_eq] at found
  obtain ⟨receiver, receiver_eq, isReceiver⟩ :
      ∃ receiver, call.target = some receiver ∧ (receiver = rule ∨ receiver = "this." ++ rule) := by
    rcases target_eq with same | same
    · exact ⟨_, same, .inl rfl⟩
    · exact ⟨_, same, .inr rfl⟩
  obtain ⟨front, last, chain, chainWritten, rfl⟩ := Call.exists_of_ofStatement? found receiver_eq
  have frontInside :
      Phrase.tokensOfAll front <:+: (Phrase.node .primary (front ++ [last])).tokens := by
    rw [Phrase.tokens_node, Phrase.tokensOfAll_append]
    exact (List.prefix_append _ _).isInfix
  have named := mem_allNamesOf_receiver scanned
    ((frontInside.trans chain.tokens).trans (isStatement.tokens.trans within))
    (chainWritten (written_of_mem_parts written isStatement.mem_parts)) isName isReceiver
  have mentioned : rule ∈ statement.references := by
    rw [references_eq, mem_namesIn_singleton]
    exact chain.names (by simpa using named)
  simpa [mentions] using mentioned

/-- The methods of a file are planned as their statements split around the calls of a rule. -/
theorem scansAsSplit_of_parse
    {source rule : String}
    {path : Option String}
    {next : Nat}
    {result : SourceUnit × Nat}
    {decl : Method}
    (parsed : SourceUnit.parse source path next = .ok result)
    (isMethod : Node.member (.method decl) ∈ Member.walkAll result.1.members)
    (isName : isVariableName rule = true) : ScansAsSplit rule decl :=
  scansAsSplit_of_callsMention fun _ inside isCall =>
    mentions_of_isRuleCall_of_parse parsed isMethod isName inside isCall

/-- A class with a method that prepares something and then states two expectations. -/
def statedAfterPreparing : String :=
  "class A \x7b\n    @org.junit.Rule\n    org.junit.rules.ExpectedException rule;\n\n" ++
    "    void t() \x7b\n        prepare();\n        rule.expect(E.class);\n" ++
    "        this.rule.expectMessage(\"m\");\n        run();\n    \x7d\n\x7d\n"

theorem scansAsSplit_of_parse_statedAfterPreparing :
    ∃ result decl, SourceUnit.parse statedAfterPreparing none 1 = .ok result ∧
      Node.member (.method decl) ∈ Member.walkAll result.1.members ∧
      isVariableName "rule" = true ∧ ScansAsSplit "rule" decl ∧
      ∃ plan, scanMethod "rule" decl = .ok (some plan) := by
  have planned : ∃ result ∈ (SourceUnit.parse statedAfterPreparing none 1).toOption,
      ∃ decl ∈ result.1.methods, ∃ plan ∈ (scanMethod "rule" decl).toOption.join, True := by
    decide +kernel
  obtain ⟨result, isResult, decl, inside, plan, isPlan, -⟩ := planned
  have parsed := Except.eq_ok_of_mem_toOption isResult
  have isMethod := SourceUnit.mem_walkAll_of_mem_methods inside
  have isName : isVariableName "rule" = true := by decide
  exact ⟨result, decl, parsed, isMethod, isName, scansAsSplit_of_parse parsed isMethod isName,
    plan, Except.eq_ok_of_mem_toOption (Option.join_eq_some_iff.mp isPlan)⟩

end ExpectedException

end JupiterMigration
