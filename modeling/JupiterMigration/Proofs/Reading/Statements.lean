import JupiterMigration.Proofs.Grammar.Nesting
import JupiterMigration.Proofs.Reading.Types

/-!
# The phrases that statements are read from

Each statement of a method in a file is read from a phrase of the file: its tokens stand in the
source in a row, and it has all properties that a phrase of a program hands down to its parts
(`SourceUnit.isRead_of_parse`).  It closes what it opens, and ends with a semicolon or a closing
brace (`IsStatementOf.closed`).  The only argument of a call closes what it opens, and a closing
parenthesis stands right behind it (`Call.exists_of_arguments_eq`).
-/

namespace JupiterMigration

theorem Method.member_notMem_walkBelow (decl : Method) (member : Member) :
    Node.member member ∉ decl.walkBelow := by
  unfold walkBelow
  cases decl.body with
  | none => simp
  | some block => simp [Block.walk]

namespace Java

open JupiterMigration.Member (bodyStatements)

/-- What holds of a phrase holds of its parts. -/
def Inherited (Holds : Phrase → Prop) : Prop :=
  ∀ {part whole}, Holds whole → part ∈ whole.parts → Holds part

/-- The labels of the bodies of methods and constructors. -/
def bodyLabels : List Label := [.block, .constructorBody]

/-- A phrase between the braces of the body of a method. -/
def IsStatementOf (phrase body : Phrase) : Prop :=
  ∃ label ∈ bodyLabels, ∃ parts braced, body = .node label parts ∧
    bracketed? "\x7b" "\x7d" parts = some braced ∧ phrase ∈ braced.inner

theorem IsStatementOf.mem_parts
    {phrase body : Phrase}
    (isStatement : IsStatementOf phrase body) : phrase ∈ body.parts := by
  obtain ⟨_, -, _, _, rfl, found, inside⟩ := isStatement
  exact bracketed?_inner_subset found inside

theorem IsStatementOf.tokens
    {phrase body : Phrase}
    (isStatement : IsStatementOf phrase body) : phrase.tokens <:+: body.tokens :=
  (Within.of_mem_parts isStatement.mem_parts).tokens

/-- A statement is, apart from its number, what a phrase in a body within another one is read as. -/
def Statement.IsReadIn
    (Holds : Phrase → Prop)
    (statement : JupiterMigration.Statement)
    (whole : Phrase) : Prop :=
  ∃ phrase body, Within body whole ∧ Holds body ∧ IsStatementOf phrase body ∧
    statement.unnumbered = Statement.ofPhrase phrase

variable {Holds : Phrase → Prop}

namespace Method

/-- The body of a method is split off the last part. -/
theorem exists_of_splitBody
    {parts : List Phrase}
    {body : Bracketed}
    (split_eq : (splitBody parts).2 = some body) :
    ∃ label inner, parts.getLast? = some (.node label inner) ∧
      bracketed? "\x7b" "\x7d" inner = some body := by
  unfold splitBody at split_eq
  split at split_eq
  · next label inner last_eq =>
      split at split_eq
      · next found =>
          cases split_eq
          exact ⟨label, inner, last_eq, found⟩
      · cases split_eq
  · cases split_eq

theorem exists_of_headerFrom?
    {front rest : List Phrase}
    {returnType : Option Phrase}
    {header : Header}
    {body : Bracketed}
    (found : headerFrom? front returnType rest = some header)
    (body_eq : header.body = some body) :
    ∃ label inner, rest.getLast? = some (.node label inner) ∧
      bracketed? "\x7b" "\x7d" inner = some body := by
  unfold headerFrom? at found
  split at found
  · split at found
    · cases found
      obtain ⟨label, inner, last_eq, found⟩ := exists_of_splitBody body_eq
      refine ⟨label, inner, ?_, found⟩
      rw [List.getLast?_cons, List.getLast?_cons, last_eq]
      rfl
    · cases found
  · cases found

theorem getLast?_of_dropWhile
    {α : Type}
    {p : α → Bool}
    {items : List α}
    {last : α}
    (last_eq : (items.dropWhile p).getLast? = some last) : items.getLast? = some last := by
  rw [← List.takeWhile_append_dropWhile (p := p) (l := items), List.getLast?_append, last_eq]
  rfl

/-- The body of a method is its last part. -/
theorem exists_of_header?
    {phrase : Phrase}
    {header : Header}
    {body : Bracketed}
    (found : header? phrase = some header)
    (body_eq : header.body = some body) :
    ∃ label inner, phrase.parts.getLast? = some (.node label inner) ∧
      bracketed? "\x7b" "\x7d" inner = some body := by
  unfold header? at found
  split at found
  · next parts =>
    dsimp only at found
    split at found
    · next type rest rest_eq =>
        obtain ⟨label, inner, last_eq, bodyFound⟩ := exists_of_headerFrom? found body_eq
        refine ⟨label, inner, getLast?_of_dropWhile (p := (!·.isA .type)) ?_, bodyFound⟩
        rw [Phrase.parts, rest_eq, List.getLast?_cons, last_eq]
        rfl
    · cases found
  · obtain ⟨label, inner, last_eq, bodyFound⟩ := exists_of_headerFrom? found body_eq
    exact ⟨label, inner, getLast?_of_dropWhile last_eq, bodyFound⟩
  · cases found

/-- The last part of a shaped method is its body, unless it is a token. -/
theorem mem_bodyLabels_of_shaped
    {phrase : Phrase}
    {header : Header}
    {label : Label}
    {inner : List Phrase}
    (shaped : Shaped phrase)
    (found : header? phrase = some header)
    (last_eq : phrase.parts.getLast? = some (.node label inner)) : label ∈ bodyLabels := by
  have ofEnd {body : Label} {front back : List Phrase} (ends : EndsInBody body back)
      (last_eq : (front ++ back).getLast? = some (.node label inner)) : label = body := by
    obtain ⟨middle, last, rfl, -, isBody⟩ := ends
    rw [← List.append_assoc, List.getLast?_concat] at last_eq
    obtain rfl := Option.some.inj last_eq
    rcases isBody with ⟨_, isToken⟩ | isBody
    · cases isToken
    · simpa [Phrase.isA, Phrase.label?] using isBody
  unfold header? at found
  split at found
  · obtain ⟨front, type, name, list, back, rfl, -, -, ends⟩ := shaped.1
    have regrouped : front ++ type :: .leaf true name :: .node .parameters list :: back =
        (front ++ [type, .leaf true name, .node .parameters list]) ++ back := by simp
    rw [Phrase.parts, regrouped] at last_eq
    rw [ofEnd ends last_eq]
    decide
  · obtain ⟨front, name, list, back, rfl, -, -, ends⟩ := shaped.1
    have regrouped : front ++ .leaf true name :: .node .parameters list :: back =
        (front ++ [.leaf true name, .node .parameters list]) ++ back := by simp
    rw [Phrase.parts, regrouped] at last_eq
    rw [ofEnd ends last_eq]
    decide
  · cases found

/-- The statements of a method are read from phrases in its body. -/
theorem isReadIn_of_ofParts?
    {lead : String}
    {parts : List Phrase}
    {method : JupiterMigration.Method}
    {statement : JupiterMigration.Statement}
    (inherited : Inherited Holds)
    (found : ofParts? lead parts = some method)
    (shaped : Shaped (.node .declaration parts))
    (holds : Holds (.node .declaration parts))
    (inside : statement ∈ bodyStatements method) :
    Statement.IsReadIn Holds statement (.node .declaration parts) := by
  unfold ofParts? at found
  split at found
  · cases found
  · next last last_eq =>
      split at found
      · cases found
      · next header headerFound =>
          split at found
          · cases found
          · cases found
            unfold bodyStatements at inside
            dsimp only at inside
            cases body_eq : header.body with
            | none =>
                rw [body_eq] at inside
                cases inside
            | some body =>
                rw [body_eq] at inside
                obtain ⟨phrase, isInner, rfl⟩ := List.mem_map.mp inside
                obtain ⟨label, inner, inner_eq, bodyFound⟩ :=
                  exists_of_header? headerFound body_eq
                have isLast := List.mem_of_getLast? last_eq
                have isPart := List.mem_of_getLast? inner_eq
                have lastShaped := shapedAll_iff.mp shaped.2 last isLast
                have isBody := mem_bodyLabels_of_shaped lastShaped headerFound inner_eq
                exact ⟨phrase, .node label inner,
                  (Within.of_mem_parts isPart).trans (.of_mem isLast _),
                  inherited (inherited holds isLast) isPart,
                  ⟨label, isBody, inner, body, rfl, bodyFound, isInner⟩, rfl⟩

end Method

namespace Member

/-- A method is read from a declaration. -/
theorem exists_of_ofPhrase_method
    {phrase : Phrase}
    {method : JupiterMigration.Method}
    (read_eq : ofPhrase phrase = .method method) :
    ∃ lead parts, phrase = .node .declaration parts ∧
      Method.ofParts? lead parts = some method := by
  cases phrase with
  | leaf isName token => cases read_eq
  | node label parts =>
      rw [ofPhrase] at read_eq
      unfold ofClassPart at read_eq
      split at read_eq
      · next declarationParts node_eq =>
          cases node_eq
          split at read_eq
          · cases read_eq
          · split at read_eq
            · next found =>
                cases read_eq
                exact ⟨_, parts, rfl, found⟩
            · cases found : ClassDecl.ofParts? (Phrase.node .declaration parts).gap parts
                  (declaredIn parts) with
              | none =>
                  rw [found] at read_eq
                  cases read_eq
              | some member =>
                  obtain ⟨view, -, rfl⟩ := Option.map_eq_some_iff.mp found
                  rw [found] at read_eq
                  cases read_eq
      · cases read_eq

/-- The members of a class stand within its declaration. -/
theorem within_of_view
    {parts : List Phrase}
    {view : ClassDecl.View}
    {part : Phrase}
    (found : parts.getLast?.bind ClassDecl.view? = some view)
    (inside : part ∈ view.body.inner) : Within part (.node .declaration parts) := by
  obtain ⟨last, last_eq, viewFound⟩ := Option.bind_eq_some_iff.mp found
  obtain ⟨inner, rfl, bodyFound⟩ := ClassDecl.view?_eq_some viewFound
  have isBody : .node .classBody inner ∈ view.front ++ [.node .classBody inner] := by simp
  have inBody := Within.of_mem (bracketed?_inner_subset bodyFound inside) .classBody
  have inClass := inBody.trans (.of_mem isBody .classDeclaration)
  exact inClass.trans (.of_mem (List.mem_of_getLast? last_eq) .declaration)

theorem holds_of_view
    {parts : List Phrase}
    {view : ClassDecl.View}
    {part : Phrase}
    (inherited : Inherited Holds)
    (found : parts.getLast?.bind ClassDecl.view? = some view)
    (holds : Holds (.node .declaration parts))
    (inside : part ∈ view.body.inner) : Holds part := by
  obtain ⟨last, last_eq, viewFound⟩ := Option.bind_eq_some_iff.mp found
  obtain ⟨inner, rfl, bodyFound⟩ := ClassDecl.view?_eq_some viewFound
  have holdsOfClass := inherited holds (List.mem_of_getLast? last_eq)
  have isBody : .node .classBody inner ∈ view.front ++ [.node .classBody inner] := by simp
  exact inherited (inherited holdsOfClass isBody) (bracketed?_inner_subset bodyFound inside)

/-- The statements of all methods of a member are read from phrases within it. -/
theorem isReadIn_ofPhrase
    (inherited : Inherited Holds)
    (phrase : Phrase)
    (shaped : Shaped phrase)
    (holds : Holds phrase)
    {decl : JupiterMigration.Method}
    (inside : Node.member (.method decl) ∈ (ofPhrase phrase).walk) :
    ∀ statement ∈ bodyStatements decl, Statement.IsReadIn Holds statement phrase := by
  cases read_eq : ofPhrase phrase with
  | importDecl _ | verbatim _ => simp [read_eq, JupiterMigration.Member.walk] at inside
  | field _ => simp [read_eq, JupiterMigration.Member.walk] at inside
  | method method =>
      obtain ⟨lead, parts, rfl, found⟩ := exists_of_ofPhrase_method read_eq
      rw [read_eq, JupiterMigration.Member.walk, List.mem_cons] at inside
      cases inside with
      | inl same =>
          cases same
          exact fun statement => Method.isReadIn_of_ofParts? inherited found shaped holds
      | inr below => exact absurd below (method.member_notMem_walkBelow _)
  | classDecl head members =>
      obtain ⟨parts, view, phrase_eq, found, rfl⟩ := exists_of_ofPhrase_classDecl shaped read_eq
      have below : Node.member (.method decl) ∈
          JupiterMigration.Member.walkAll (view.body.inner.map ofPhrase) := by
        simpa [read_eq, JupiterMigration.Member.walk] using inside
      obtain ⟨_, isMember, inMember⟩ := JupiterMigration.Member.mem_walkAll.mp below
      obtain ⟨part, isPart, rfl⟩ := List.mem_map.mp isMember
      have smaller : sizeOf part < sizeOf phrase := by
        have inParts := sizeOf_lt_of_view found isPart
        rw [phrase_eq, Phrase.node.sizeOf_spec]
        omega
      subst phrase_eq
      intro statement isStatement
      obtain ⟨inner, body, within, holdsOfBody, same⟩ := isReadIn_ofPhrase inherited part
        (shaped_of_view found shaped.2 isPart) (holds_of_view inherited found holds isPart) inMember
        statement isStatement
      exact ⟨inner, body, within.trans (within_of_view found isPart), holdsOfBody, same⟩
  termination_by sizeOf phrase

/-- The statements of all methods in a declaration at the top of a file are read from it. -/
theorem isReadIn_ofTopLevel
    {phrase : Phrase}
    (inherited : Inherited Holds)
    (shaped : Shaped phrase)
    (holds : Holds phrase)
    {decl : JupiterMigration.Method}
    (inside : Node.member (.method decl) ∈ (ofTopLevel phrase).walk) :
    ∀ statement ∈ bodyStatements decl, Statement.IsReadIn Holds statement phrase := by
  rcases ofTopLevel_cases phrase with same | ⟨_, -, import_eq⟩ | verbatim_eq
  · rw [same] at inside
    exact isReadIn_ofPhrase inherited phrase shaped holds inside
  · rw [import_eq] at inside
    cases List.mem_singleton.mp inside
  · rw [verbatim_eq] at inside
    cases List.mem_singleton.mp inside

end Member

end Java

/-- Methods that differ in numbers only have the same statements, apart from the numbers. -/
theorem Method.exists_statement_of_unnumbered_eq
    {decl other : Method}
    {statement : Statement}
    (same : other.unnumbered = decl.unnumbered)
    (inside : statement ∈ Member.bodyStatements decl) :
    ∃ original ∈ Member.bodyStatements other, original.unnumbered = statement.unnumbered := by
  have bodies : other.body.map Block.unnumbered = decl.body.map Block.unnumbered :=
    congrArg Method.body same
  unfold Member.bodyStatements at inside ⊢
  cases body_eq : decl.body with
  | none =>
      rw [body_eq] at inside
      cases inside
  | some block =>
      rw [body_eq] at inside bodies
      obtain ⟨block', other_eq, block_eq⟩ := Option.map_eq_some_iff.mp bodies
      have statements_eq : block'.statements.map Statement.unnumbered =
          block.statements.map Statement.unnumbered := congrArg Block.statements block_eq
      have among : statement.unnumbered ∈ block'.statements.map Statement.unnumbered := by
        rw [statements_eq]
        exact List.mem_map_of_mem inside
      rw [other_eq]
      exact List.mem_map.mp among

namespace SourceUnit

open Java

variable {Holds : Phrase → Prop} {source : String} {path : Option String}

/-- The statements of a method that is read are read from phrases of the source. -/
theorem isRead_of_read?
    {unit : SourceUnit}
    (inherited : Inherited Holds)
    (everywhere : ∀ {tokens phrases}, readProgram tokens = some phrases →
      ∀ phrase ∈ phrases, Holds phrase)
    (read : read? source path = some unit)
    {decl : Method}
    (isMethod : Node.member (.method decl) ∈ Member.walkAll unit.members)
    {statement : Statement}
    (inside : statement ∈ Member.bodyStatements decl) :
    ∃ tokens tail phrase body, Token.scan source = some (tokens, tail) ∧ body.tokens <:+: tokens ∧
      Holds body ∧ IsStatementOf phrase body ∧
      statement.unnumbered = Java.Statement.ofPhrase phrase := by
  obtain ⟨⟨phrases, tail⟩, found, rfl⟩ := Option.map_eq_some_iff.mp read
  obtain ⟨tokens, scanned, readFound⟩ := exists_tokens_of_phrases? found
  obtain ⟨_, isMember, below⟩ := Member.mem_walkAll.mp isMethod
  obtain ⟨whole, isPhrase, rfl⟩ := List.mem_map.mp isMember
  obtain ⟨phrase, body, within, holds, phrase_eq⟩ := Java.Member.isReadIn_ofTopLevel inherited
    (shapedAll_iff.mp (shaped_of_readProgram readFound) whole isPhrase)
    (everywhere readFound whole isPhrase) below statement inside
  have wholeInside : whole.tokens <:+: tokens := by
    rw [← readProgram_lossless readFound]
    exact (Within.of_mem isPhrase .other).tokens
  exact ⟨tokens, tail, phrase, body, scanned, within.tokens.trans wholeInside, holds, phrase_eq⟩

/-- The statements of a method in a file are read from phrases of the file. -/
theorem isRead_of_parse
    {next : Nat}
    {result : SourceUnit × Nat}
    (inherited : Inherited Holds)
    (everywhere : ∀ {tokens phrases}, readProgram tokens = some phrases →
      ∀ phrase ∈ phrases, Holds phrase)
    (parsed : parse source path next = .ok result)
    {decl : Method}
    (isMethod : Node.member (.method decl) ∈ Member.walkAll result.1.members)
    {statement : Statement}
    (inside : statement ∈ Member.bodyStatements decl) :
    ∃ tokens tail phrase body, Token.scan source = some (tokens, tail) ∧ body.tokens <:+: tokens ∧
      Holds body ∧ IsStatementOf phrase body ∧
      statement.unnumbered = Java.Statement.ofPhrase phrase := by
  unfold parse at parsed
  split at parsed
  · next unit read =>
      cases parsed
      obtain ⟨original, originalInside, same⟩ := Member.exists_of_mem_walkAll_numberedAll isMethod
      obtain ⟨other, rfl⟩ : ∃ other, original = .member (.method other) := by
        cases original with
        | member member =>
            cases member with
            | method other => exact ⟨other, rfl⟩
            | _ => cases same
        | _ => cases same
      have same_method : other.unnumbered = decl.unnumbered :=
        Member.method.inj (Node.member.inj same)
      obtain ⟨first, isFirst, first_eq⟩ :=
        Method.exists_statement_of_unnumbered_eq same_method inside
      exact first_eq ▸ isRead_of_read? inherited everywhere read originalInside isFirst
  · cases parsed

end SourceUnit

namespace Java

open Rule

/-! ## How statements nest and end -/

/-- What stands between two symbols in a rule stands between them in the phrases. -/
theorem derives_inner
    {C : Type}
    {table : C → Rule C}
    {opening closing : String}
    {inside : Rule C}
    {parts : List Phrase}
    {braced : Bracketed}
    (derived : Derives table (.seq (.symbol opening) (.seq inside (.symbol closing))) parts)
    (found : bracketed? opening closing parts = some braced) :
    Derives table inside braced.inner := by
  obtain ⟨_, again, derivedInner, -⟩ :=
    bracketed?_of_enclosed (derived.enclosed fun _ derivedInside => derivedInside)
  rw [found] at again
  cases again
  exact derivedInner

/-- Phrases that repeat a category are each derived from it, if it derives single phrases. -/
theorem derives_of_mem_many
    {C : Type}
    {table : C → Rule C}
    {category : C}
    {phrases : List Phrase}
    {phrase : Phrase}
    (derived : Derives table (.many (.call category)) phrases)
    (single : isSingle table callDepth (.call category) = true)
    (inside : phrase ∈ phrases) : Derives table (.call category) [phrase] := by
  obtain ⟨pieces, rfl, derivedPieces⟩ := derived.of_many
  obtain ⟨piece, isPiece, inPiece⟩ := List.mem_flatten.mp inside
  obtain ⟨only, rfl⟩ := (derivedPieces piece isPiece).eq_singleton callDepth single
  obtain rfl := List.mem_singleton.mp inPiece
  exact derivedPieces _ isPiece

/-- Phrases that close what they open and end as statements do. -/
structure Closed (phrases : List Phrase) : Prop where
  nested : Nested (Phrase.tokensOfAll phrases)
  ends : EndsWith statementEnds phrases

theorem closed_of_derives
    {rule : Rule Category}
    {phrases : List Phrase}
    (derived : Derives Category.rule rule phrases)
    (nests : rule.nest [] = some [])
    (ends : rule.endsOnly Category.rule statementEnds endsAsStatement = true) : Closed phrases :=
  ⟨nestAll_of_derives nest_rule derived nests, endsWith_of_derives endsOnly_rule derived ends⟩

/-- The statements in a body are closed. -/
theorem IsStatementOf.closed
    {phrase body : Phrase}
    (written : Written body)
    (isStatement : IsStatementOf phrase body) : Closed [phrase] := by
  obtain ⟨label, isBody, parts, braced, rfl, found, inside⟩ := isStatement
  have isWritten := written.1
  have ofMany {phrases : List Phrase}
      (derived : Derives Category.rule (.many (.call .statement)) phrases)
      (among : phrase ∈ phrases) : Closed [phrase] :=
    closed_of_derives (derives_of_mem_many derived (by decide) among) rfl rfl
  simp only [bodyLabels, List.mem_cons, List.not_mem_nil, or_false] at isBody
  rcases isBody with rfl | rfl
  · obtain ⟨category, isWriter, derived⟩ := isWritten (by decide)
    obtain rfl := List.mem_singleton.mp isWriter
    obtain ⟨_, same, derivedParts⟩ := derived.of_call.of_node
    cases same
    exact ofMany (derives_inner derivedParts found) inside
  · obtain ⟨category, isWriter, derived⟩ := isWritten (by decide)
    obtain rfl := List.mem_singleton.mp isWriter
    obtain ⟨_, same, derivedParts⟩ := derived.of_call.of_node
    cases same
    -- The call of another constructor may come first.
    obtain ⟨front, back, inner_eq, derivedCall, derivedRest⟩ :=
      (derives_inner derivedParts found).of_seq
    rw [inner_eq] at inside
    cases List.mem_append.mp inside with
    | inr later => exact ofMany derivedRest later
    | inl first =>
        cases derivedCall.of_either with
        | inr nothing =>
            rw [nothing.eq_nil] at first
            cases first
        | inl derivedCall =>
            obtain ⟨only, rfl⟩ := derivedCall.eq_singleton callDepth (by decide)
            obtain rfl := List.mem_singleton.mp first
            exact closed_of_derives derivedCall (by decide) (by decide)

/-! ## Arguments of calls -/

/-- The only phrase among some arguments is an expression, and stands between the parentheses. -/
theorem exists_of_phrasesAmong
    {list phrase : Phrase}
    (derived : Derives Category.rule (.call .arguments) [list])
    (only : phrasesAmong list.parts = [phrase]) :
    ∃ opening closing, list.tokens = opening :: (phrase.tokens ++ [closing]) ∧
      closing.text = ")" ∧ Derives Category.rule (.call (.expression true)) [phrase] := by
  obtain ⟨inner, same, derivedParts⟩ := derived.of_call.of_node
  cases same
  obtain ⟨_, _, rfl, derivedOpening, afterOpening⟩ := derivedParts.of_seq
  obtain ⟨opening, rfl, -⟩ := derivedOpening.of_symbol
  obtain ⟨items, _, rfl, derivedItems, derivedClosing⟩ := afterOpening.of_seq
  obtain ⟨closing, rfl, closes⟩ := derivedClosing.of_symbol
  have among : phrasesAmong (.leaf false opening :: (items ++ [.leaf false closing])) =
      phrasesAmong items := by
    simp [phrasesAmong, Phrase.label?]
  change phrasesAmong (.leaf false opening :: (items ++ [.leaf false closing])) = [phrase] at only
  rw [among] at only
  cases derivedItems.of_either with
  | inr nothing =>
      rw [nothing.eq_nil] at only
      cases only
  | inl separated =>
      obtain ⟨_, _, rfl, derivedFirst, derivedMore⟩ := separated.of_seq
      obtain ⟨first, rfl, -⟩ := derivedFirst.of_call.of_node
      obtain ⟨pieces, rfl, derivedPieces⟩ := derivedMore.of_many
      cases pieces with
      | nil =>
          cases only
          refine ⟨opening, closing, ?_, closes, derivedFirst⟩
          simp [Phrase.tokensOfAll, Phrase.tokens]
      | cons piece pieces =>
          obtain ⟨_, _, rfl, derivedComma, derivedNext⟩ :=
            (derivedPieces piece List.mem_cons_self).of_seq
          obtain ⟨comma, rfl, -⟩ := derivedComma.of_symbol
          obtain ⟨next, rfl, -⟩ := derivedNext.of_call.of_node
          simp [phrasesAmong, Phrase.label?] at only

/-- The only argument of a call closes what it opens, and a closing parenthesis stands behind it. -/
theorem Call.exists_of_arguments_eq
    {phrase : Phrase}
    {call : JupiterMigration.Call}
    {argument : JupiterMigration.Expression}
    (written : Written phrase)
    (found : ofStatement? phrase = some call)
    (only : call.arguments = [argument]) :
    ∃ part closing, argument = Expression.ofPhrase part ∧ closing.text = ")" ∧
      part.tokens ++ [closing] <:+: phrase.tokens ∧ part.tokens ≠ [] ∧ Nested part.tokens := by
  unfold ofStatement? at found
  split at found
  · next expression rest =>
      unfold ofExpression? at found
      split at found
      · next links =>
          split at found
          · next parts last_eq =>
              cases found
              have isLink := List.mem_of_getLast? last_eq
              have writtenLink := writtenAll_iff.mp written.2.1.2.1.2 _ isLink
              obtain ⟨front, list, rfl, derived⟩ := writtenLink.1
              dsimp only at only
              rw [List.getLast?_concat] at only
              obtain ⟨part, among, rfl⟩ := List.map_eq_singleton_iff.mp only
              obtain ⟨opening, closing, list_eq, closes, derivedPart⟩ :=
                exists_of_phrasesAmong derived among
              have inCall : Within list (.node .call (front ++ [list])) :=
                .of_mem (by simp) .call
              have inPrimary := inCall.trans (.of_mem isLink .primary)
              have inExpression := inPrimary.trans (.of_mem (List.mem_singleton_self _) .expression)
              have inStatement := inExpression.trans
                (.of_mem (List.mem_cons_self : _ ∈ _ :: rest) .expressionStatement)
              have tokens_eq : Phrase.tokensOfAll [part] = part.tokens := by
                rw [Phrase.tokensOfAll, Phrase.tokensOfAll, List.append_nil]
              refine ⟨part, closing, rfl, closes, ?_, ?_, ?_⟩
              · refine List.IsInfix.trans ?_ inStatement.tokens
                rw [list_eq]
                exact (List.suffix_cons opening _).isInfix
              · exact tokens_eq ▸ derivedPart.tokens_ne_nil callDepth (by decide)
              · exact tokens_eq ▸ nested_of_derives derivedPart
          · cases found
      · cases found
  · cases found

end Java

end JupiterMigration
