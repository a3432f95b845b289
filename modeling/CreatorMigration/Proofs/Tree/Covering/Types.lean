import CreatorMigration.Proofs.Tree.Clauses
import CreatorMigration.Proofs.Tree.Covering

/-! # Tokens of types and parameters

Types, parameters and patterns cover the tokens that they are read from. Unions are the only shapes
that this says more of, and `chainOfTypes` is where they come from.
-/

namespace CreatorMigration.Grammar

open Shape (Covers)

variable {parse : Parse}

/-! ## Types behind a colon -/

theorem reads_typeAscription (nested : ReadsNested parse) : Reads Covers (typeAscription parse) :=
  (reads_mark _).groupOfTwo (nested _) rfl

theorem reads_optionalAscription (nested : ReadsNested parse) :
    Reads (Tiles Covers) (optionalAscription parse) :=
  Reads.optionally <| (reads_typeAscription nested).bind fun _ =>
    reads_pure fun _ _ covered => .single (covered.withRole _)

theorem reads_typePredicate (nested : ReadsNested parse) : Reads Covers (typePredicate parse) := by
  refine (reads_identifier.orElse (reads_takeIf _ _ _ rfl)).bind fun _ => ?_
  refine (looks_check _ _).then fun _ => (reads_word _).guarded.bind fun _ => ?_
  refine (nested _).bind fun _ => ?_
  exact reads_pure fun _ _ inner _ isWord _ subject =>
    covers_group (.cons subject (.cons isWord (.single inner))) rfl

theorem reads_assertion (nested : ReadsNested parse) :
    Reads (Tiles Covers) (assertion parse) := by
  refine (reads_word _).bind fun _ => (looks_check _ _).then fun _ => Reads.guarded ?_
  refine ((reads_typePredicate nested).orElse
    (reads_identifier.orElse (reads_takeIf _ _ _ rfl))).bind fun _ => ?_
  exact reads_pure fun _ _ claim _ keyword => .cons keyword (.single claim)

theorem reads_returnAscription (nested : ReadsNested parse) :
    Reads Covers (returnAscription parse) := by
  refine (reads_mark _).bind fun _ => Reads.orElse ?_ (Reads.orElse ?_ ?_)
  · refine (reads_assertion nested).bind fun _ => ?_
    exact reads_pure fun _ _ claim _ colon => covers_group (.cons colon claim) rfl
  · refine (reads_typePredicate nested).bind fun _ => ?_
    exact reads_pure fun _ _ inner _ colon => covers_group (.cons colon (.single inner)) rfl
  · refine (nested _).bind fun _ => ?_
    exact reads_pure fun _ _ inner _ colon => covers_group (.cons colon (.single inner)) rfl

/-! ## Type parameters and arguments -/

theorem reads_typeParameter (nested : ReadsNested parse) : Reads Covers (typeParameter parse) := by
  have modifier : Reads Covers (do
      guarded (← check (·.kind == .word) 1) (oneOfWords ["const", "in", "out"])) :=
    (looks_check _ _).then fun _ => (reads_oneOfWords _).guarded
  have bound {kind : Kind} {opening : Parser Shape} (opens : Reads Covers opening)
      (plain : kind.isPlain = true) :
      Reads (Tiles Covers) (do return [group kind [← opening, ← parse .type]]) :=
    opens.bind fun _ => (nested _).bind fun _ => reads_pure fun _ _ inner _ sign =>
      .single (covers_group (.cons sign (.single inner)) plain)
  refine modifier.many.bind fun _ => reads_typeName.bind fun _ => ?_
  refine (bound (reads_word _) rfl).optionally.bind fun _ => ?_
  refine (bound (reads_mark _) rfl).optionally.bind fun _ => ?_
  exact reads_pure fun _ _ default _ bound _ name _ modifiers =>
    covers_group ((modifiers.append (.cons (name.withRole _) bound)).append default) rfl

theorem reads_typeParameters (nested : ReadsNested parse) :
    Reads Covers (typeParameters parse) :=
  (reads_bracketed (reads_typeParameter nested).single _ _).bind fun _ =>
    reads_pure fun _ _ inside => covers_group inside rfl

theorem reads_typeArguments (nested : ReadsNested parse) : Reads Covers (typeArguments parse) :=
  (reads_bracketed (nested _).single _ _).bind fun _ =>
    reads_pure fun _ _ inside => (covers_group inside rfl).withRole _

/-! ## Patterns -/

theorem reads_initializer (nested : ReadsNested parse) :
    Reads (Tiles Covers) (initializer parse) := by
  refine (reads_mark _).bind fun _ => (nested _).bind fun _ => ?_
  exact reads_pure fun _ _ value _ sign => .cons sign (.single (value.withRole _))

theorem reads_withDefault (nested : ReadsNested parse) (target : Shape) :
    Reads (Behind (Covers target) Covers) (withDefault parse target) := by
  refine (looks_check _ _).then fun _ => Reads.ite ?_ (reads_pure fun _ _ covered => covered)
  refine (reads_mark _).bind fun _ => (nested _).bind fun _ => ?_
  exact reads_pure fun _ _ value _ sign _ target =>
    covers_group (.cons target (.cons sign (.single value))) rfl

theorem reads_restPattern (nested : ReadsNested parse) : Reads Covers (restPattern parse) :=
  (reads_mark _).groupOfTwo (nested _) rfl

theorem reads_propertyPattern (nested : ReadsNested parse) :
    Reads Covers (propertyPattern parse) := by
  refine Reads.orElse ?_ ?_
  · refine (reads_memberName nested).bind fun _ => (reads_mark _).bind fun _ => ?_
    refine (nested _).bind fun _ => (reads_withDefault nested _).bind fun _ => ?_
    exact reads_pure fun _ _ whole _ target _ colon _ key =>
      covers_group (.cons (key.withRole _)
        (.cons colon (.single ((whole _ target).withRole _)))) rfl
  · refine (reads_anyWord _ rfl).bind fun _ => (looks_check _ _).then fun _ => Reads.ite ?_ ?_
    · refine (reads_mark _).bind fun _ => (nested _).bind fun _ => ?_
      exact reads_pure fun _ _ value _ sign _ target =>
        covers_group (.cons target (.cons sign (.single value))) rfl
    · exact reads_pure fun _ _ target => target

theorem reads_objectPattern (nested : ReadsNested parse) : Reads Covers (objectPattern parse) :=
  (reads_bracketed ((reads_restPattern nested).orElse
    (reads_propertyPattern nested)).single _ _).bind fun _ =>
      reads_pure fun _ _ inside => covers_group inside rfl

theorem reads_arrayPattern (nested : ReadsNested parse) : Reads Covers (arrayPattern parse) := by
  have item : Reads Covers (restPattern parse <|> do withDefault parse (← parse .pattern)) :=
    (reads_restPattern nested).orElse ((nested _).bind fun _ => reads_withDefault nested _)
  refine (reads_bracketed item.single _ _).bind fun _ => ?_
  exact reads_pure fun _ _ inside => covers_group inside rfl

theorem reads_pattern (nested : ReadsNested parse) : Reads Covers (pattern parse) := by
  refine (looks_check _ _).then fun _ => (reads_objectPattern nested).ite ?_
  refine (looks_check _ _).then fun _ => (reads_arrayPattern nested).ite ?_
  exact (looks_check _ _).then fun _ => (reads_restPattern nested).ite (nested _)

theorem reads_bindingPattern (nested : ReadsNested parse) :
    Reads Covers (bindingPattern parse) := by
  refine (looks_check _ _).then fun _ => (reads_objectPattern nested).ite ?_
  exact (looks_check _ _).then fun _ => (reads_arrayPattern nested).ite reads_identifier

/-! ## Decorators -/

theorem reads_callArguments (nested : ReadsNested parse) : Reads Covers (callArguments parse) := by
  have item : Reads Covers (do
      if ← atMark "..." then
        return group .spreadElement [← mark "...", ← parse (.expression false)]
      else parse (.expression false)) :=
    (looks_check _ _).then fun _ => ((reads_mark _).groupOfTwo (nested _) rfl).ite (nested _)
  refine (reads_bracketed item.single _ _).bind fun _ => ?_
  exact reads_pure fun _ _ inside => (covers_group inside rfl).withRole _

/-- A sign and what stands behind it. -/
def CoversBoth (pair : Shape × Shape) (tokens rest : List Token) : Prop :=
  Tiles Covers [pair.1, pair.2] tokens rest

theorem reads_both {first second : Parser Shape} (readsFirst : Reads Covers first)
    (readsSecond : Reads Covers second) :
    Reads CoversBoth (do return (← first, ← second)) :=
  readsFirst.bind fun _ => readsSecond.bind fun _ =>
    reads_pure fun _ _ behind _ inFront => .cons inFront (.single behind)

/-- What is put around a shape, pair by pair, covers the pairs as well. -/
theorem covers_foldl {wrap : Shape → Shape × Shape → Shape}
    (wraps : ∀ target pair tokens middle rest, Covers target tokens middle →
      CoversBoth pair middle rest → Covers (wrap target pair) tokens rest)
    {target : Shape} {pairs : List (Shape × Shape)} {tokens middle rest : List Token}
    (start : Covers target tokens middle) (behind : Tiles CoversBoth pairs middle rest) :
    Covers (pairs.foldl wrap target) tokens rest := by
  induction behind generalizing target with
  | nil => exact start
  | cons first _ inductionHypothesis => exact inductionHypothesis (wraps _ _ _ _ _ start first)

/-- Names behind signs, which make accesses or qualified names of what is in front of them. -/
theorem covers_accesses {kind : Kind} {target : Shape} {pairs : List (Shape × Shape)}
    {tokens middle rest : List Token} (start : Covers target tokens middle)
    (behind : Tiles CoversBoth pairs middle rest)
    (plain : kind.isPlain = true) :
    Covers (pairs.foldl (fun target (dot, name) =>
      group kind [target.withRole .object, dot, name.withRole .property]) target) tokens rest := by
  refine covers_foldl (fun target pair tokens middle rest start behind => ?_) start behind
  obtain ⟨_, _⟩ := pair
  cases behind with
  | cons dot others =>
    cases others with
    | cons last none =>
      cases none
      exact covers_group
        (.cons (start.withRole _) (.cons dot (.single (last.withRole _)))) plain

theorem covers_typeAccesses {target : Shape} {pairs : List (Shape × Shape)}
    {tokens middle rest : List Token} (start : Covers target tokens middle)
    (behind : Tiles CoversBoth pairs middle rest) :
    Covers (pairs.foldl (fun target (dot, last) =>
      group .nestedTypeIdentifier [target, dot, last.withRole .name]) target) tokens rest := by
  refine covers_foldl (fun target pair tokens middle rest start behind => ?_) start behind
  obtain ⟨_, _⟩ := pair
  cases behind with
  | cons dot others =>
    cases others with
    | cons last none =>
      cases none
      exact covers_group (.cons start (.cons dot (.single (last.withRole _)))) rfl

theorem reads_dottedName (nested : ReadsNested parse) : Reads Covers (dottedName parse) := by
  refine reads_identifier.bind fun _ => ?_
  refine (reads_both (reads_mark _) reads_propertyName).many.bind fun _ => ?_
  refine (reads_typeArguments nested).single.optionally.bind fun types => ?_
  refine (looks_check _ _).then fun _ => Reads.ite ?_ ?_
  · refine (reads_callArguments nested).bind fun _ => ?_
    exact reads_pure fun _ _ list _ types _ dotted _ first =>
      covers_group (.cons ((covers_accesses first dotted rfl).withRole _)
        (types.append (.single list))) rfl
  · cases types with
    | nil =>
      refine Reads.guarded (reads_pure fun _ _ types _ dotted _ first => ?_)
      cases types
      exact covers_accesses first dotted rfl
    | cons => exact reads_failure

theorem reads_decorator (nested : ReadsNested parse) : Reads Covers (decorator parse) := by
  refine (reads_mark _).bind fun _ => ((reads_dottedName nested).orElse
    ((reads_mark _).groupOfThree (nested _) (reads_mark _) rfl)).bind fun _ => ?_
  exact reads_pure fun _ _ target _ sign =>
    (covers_group (.cons sign (.single target)) rfl).withRole _

/-! ## Parameters -/

theorem reads_parameterModifier : Reads Covers parameterModifier :=
  (looks_check _ _).then fun _ => Reads.guarded <|
    looks_peek.then fun token => reads_modifierShape _ token

theorem reads_parameterPattern (nested : ReadsNested parse) :
    Reads Covers (parameterPattern parse) := by
  refine (looks_check _ _).then fun _ =>
    ((reads_mark _).groupOfTwo (reads_bindingPattern nested) rfl).ite ?_
  exact (looks_check _ _).then fun _ => (reads_takeIf _ _ _ rfl).ite (reads_bindingPattern nested)

theorem reads_parameter (nested : ReadsNested parse) : Reads Covers (parameter parse) := by
  refine (reads_decorator nested).many.bind fun _ => reads_parameterModifier.many.bind fun _ => ?_
  refine (reads_parameterPattern nested).bind fun _ => ?_
  refine (reads_mark _).single.optionally.bind fun question => ?_
  refine (reads_optionalAscription nested).bind fun _ => ?_
  refine (reads_initializer nested).optionally.bind fun _ => ?_
  refine reads_pure fun _ _ value _ type _ question _ target _ modifiers _ decorators => ?_
  refine covers_group ((((decorators.append modifiers).append
    (.cons (target.withRole _) question)).append type).append value) ?_
  split <;> rfl

theorem reads_parameters (nested : ReadsNested parse) : Reads Covers (parameters parse) :=
  (reads_bracketed (reads_parameter nested).single _ _).bind fun _ =>
    reads_pure fun _ _ inside => (covers_group inside rfl).withRole _

theorem reads_signature (nested : ReadsNested parse) :
    Reads (Tiles Covers) (signature parse) := by
  refine (reads_typeParameters nested).single.optionally.bind fun _ => ?_
  refine (reads_parameters nested).bind fun _ => ?_
  refine (reads_returnAscription nested).single.optionally.bind fun _ => ?_
  exact reads_pure fun _ _ result _ list _ types => types.append (.cons list result)

theorem reads_block (nested : ReadsNested parse) : Reads Covers (block parse) := by
  refine (reads_mark _).bind fun _ => ((nested _).manyUntil (reads_mark _)).bind fun _ => ?_
  refine reads_trailingSemicolon.bind fun _ => ?_
  exact reads_pure fun _ _ ending _ statements _ opening =>
    covers_group ((Tiles.cons opening statements).append ending) rfl

theorem reads_body (nested : ReadsNested parse) : Reads Covers (body parse) :=
  (reads_block nested).bind fun _ => reads_pure fun _ _ covered => covered.withRole _

/-! ## Names of types -/

theorem covers_moduleAccess {first : Shape} {pairs : List (Shape × Shape)}
    {tokens middle rest : List Token} (start : Covers first tokens middle)
    (behind : Tiles CoversBoth pairs middle rest) :
    Covers (moduleAccess first pairs) tokens rest := by
  induction pairs generalizing first middle with
  | nil =>
    cases behind
    exact start
  | cons pair others inductionHypothesis =>
    obtain ⟨dot, name⟩ := pair
    cases behind with
    | cons both behind =>
      have access (kind : Kind) (plain : kind.isPlain = true) :
          Covers (group kind [first.withRole .object, dot, name.withRole .property]) tokens _ :=
        covers_accesses start (.single both) plain
      cases others with
      | nil =>
        cases behind
        exact access .nestedIdentifier rfl
      | cons next others =>
        exact inductionHypothesis (access .memberExpression rfl) behind

theorem reads_namedType (nested : ReadsNested parse) : Reads Covers (namedType parse) := by
  have generic (name : Shape) : Reads (Behind (Covers name) Covers) (do
      let arguments ← optionally (single (typeArguments parse))
      return if arguments.isEmpty then name
        else group .genericType (name.withRole .name :: arguments)) := by
    refine (reads_typeArguments nested).single.optionally.bind fun arguments => ?_
    refine reads_pure fun _ _ arguments _ name => ?_
    split
    · next none =>
      cases arguments with
      | nil => exact name
      | cons => cases none
    · exact covers_group (.cons (name.withRole _) arguments) rfl
  have access : Reads CoversBoth (do
      let dot ← mark "."
      guarded (← atMarkAfter 1 ".") (do return (dot, ← anyWord .propertyIdentifier))) :=
    (reads_mark _).bind fun _ => (looks_check _ _).then fun _ => Reads.guarded <|
      (reads_anyWord _ rfl).bind fun _ => reads_pure fun _ _ name _ dot => .cons dot (.single name)
  refine (looks_check _ _).then fun _ => Reads.ite ?_ (reads_typeName.bind generic)
  refine reads_identifier.bind fun _ => access.many.bind fun _ => (reads_mark _).bind fun _ => ?_
  refine (reads_anyWord _ rfl).bind fun _ => ?_
  exact fun _ _ _ read _ last _ dot _ dotted _ first => generic _ _ _ _ read _
    (covers_group (.cons (covers_moduleAccess first dotted)
      (.cons dot (.single (last.withRole _)))) rfl)

/-- Type arguments make something else of what they follow. -/
theorem reads_applied (nested : ReadsNested parse) {kind : Kind} (target : Shape)
    (plain : kind.isPlain = true) :
    Reads (Behind (Covers target) Covers) (do
      let types ← optionally (single (typeArguments parse))
      return if types.isEmpty then target else group kind (target :: types)) := by
  refine (reads_typeArguments nested).single.optionally.bind fun types => ?_
  refine reads_pure fun _ _ types _ target => ?_
  split
  · next none =>
    cases types with
    | nil => exact target
    | cons => cases none
  · exact covers_group (.cons target types) plain

theorem reads_importedType (nested : ReadsNested parse) : Reads Covers (importedType parse) := by
  refine (reads_takeIf _ _ _ rfl).bind fun _ => (reads_callArguments nested).bind fun _ => ?_
  refine (reads_both (reads_mark _) (reads_anyWord _ rfl)).many.bind fun _ => ?_
  exact fun _ _ _ read _ dotted _ list _ callee =>
    reads_applied nested _ rfl _ _ _ read _
      (covers_typeAccesses (covers_group (.cons (callee.withRole _) (.single list)) rfl) dotted)

theorem reads_queriedValue (nested : ReadsNested parse) : Reads Covers (queriedValue parse) := by
  have others (first : Shape) : Reads (Behind (Covers first) Covers) (do
      let dotted ← many do return (← mark ".", ← propertyName)
      let access := dotted.foldl (fun target (dot, name) =>
        group .memberExpression [target.withRole .object, dot, name.withRole .property]) first
      let types ← optionally (single (typeArguments parse))
      return if types.isEmpty then access
        else group .instantiationExpression (access :: types)) := by
    refine (reads_both (reads_mark _) reads_propertyName).many.bind fun _ => ?_
    exact fun _ _ _ read _ dotted _ first =>
      reads_applied nested _ rfl _ _ _ read _ (covers_accesses first dotted rfl)
  refine (looks_check _ _).then fun _ => Reads.branch (reads_importedType nested) ?_ others
  exact (reads_takeIf _ _ _ rfl).orElse reads_identifier

/-! ## Object types -/

theorem reads_indexModifiers : Reads (Tiles Covers) indexModifiers := by
  refine Reads.optionally ?_
  refine ((reads_mark _).orElse (reads_mark _)).single.optionally.bind fun _ => ?_
  refine (reads_word _).bind fun _ => ?_
  exact reads_pure fun _ _ keyword _ sign => sign.append (.single keyword)

theorem reads_indexSignature (nested : ReadsNested parse) : Reads Covers (indexSignature parse) := by
  have others (modifiers inner : List Shape) (opening : Shape) :
      Reads (Behind (Tiles Covers (modifiers ++ opening :: inner)) Covers) (do
        let close ← mark "]"
        let sign ← optionally (single (mark "+" <|> mark "-"))
        let question ← optionally (single (mark "?"))
        let ascription ← optionalAscription parse
        return group .indexSignature
          (modifiers ++ opening :: inner ++ close :: sign ++ question ++ ascription)) := by
    refine (reads_mark _).bind fun _ => ?_
    refine ((reads_mark _).orElse (reads_mark _)).single.optionally.bind fun _ => ?_
    refine (reads_mark _).single.optionally.bind fun _ => ?_
    refine (reads_optionalAscription nested).bind fun _ => ?_
    exact reads_pure fun _ _ ascription _ question _ sign _ close _ inFront =>
      covers_group (((inFront.append (.cons close sign)).append question).append ascription) rfl
  refine reads_indexModifiers.bind fun _ => (reads_mark _).bind fun _ => ?_
  refine (looks_check _ _).then fun _ => Reads.ite ?_ ?_
  · refine reads_typeName.bind fun _ => (reads_word _).bind fun _ => (nested _).bind fun _ => ?_
    refine ((reads_word _).pair (nested _)).optionally.bind fun _ => ?_
    exact fun _ _ _ read _ remapping _ source _ keyword _ name _ opening _ modifiers =>
      others _ _ _ _ _ _ read _ (modifiers.append (.cons opening (.single (covers_group
        ((Tiles.cons (name.withRole _) (.cons keyword (.single source))).append remapping) rfl))))
  · refine reads_identifier.bind fun _ => (reads_mark _).bind fun _ => (nested _).bind fun _ => ?_
    exact fun _ _ _ read _ type _ colon _ name _ opening _ modifiers =>
      others _ _ _ _ _ _ read _ (modifiers.append (.cons opening
        (.cons (name.withRole _) (.cons colon (.single type)))))

theorem reads_memberSignature (nested : ReadsNested parse) :
    Reads Covers (memberSignature parse) := by
  refine (reads_modifierOf _).many.bind fun _ => (reads_memberName nested).bind fun _ => ?_
  refine (reads_mark _).single.optionally.bind fun _ => ?_
  refine (looks_check _ _).then fun _ => (looks_check _ _).then fun _ => Reads.ite ?_ ?_
  · refine (reads_signature nested).bind fun _ => ?_
    exact reads_pure fun _ _ head _ question _ name _ modifiers =>
      covers_group ((modifiers.append (.cons (name.withRole _) question)).append head) rfl
  · refine (reads_optionalAscription nested).bind fun _ => ?_
    exact reads_pure fun _ _ type _ question _ name _ modifiers =>
      covers_group ((modifiers.append (.cons (name.withRole _) question)).append type) rfl

theorem reads_objectTypeMember (nested : ReadsNested parse) :
    Reads Covers (objectTypeMember parse) := by
  refine (reads_indexSignature nested).orElse (Reads.orElse ?_ (Reads.orElse ?_
    (reads_memberSignature nested)))
  · refine (looks_check _ _).then fun _ => (looks_check _ _).then fun _ => Reads.ite ?_ reads_failure
    exact (reads_signature nested).bind fun _ => reads_pure fun _ _ head => covers_group head rfl
  · refine (reads_word _).bind fun _ => (reads_signature nested).bind fun _ => ?_
    exact reads_pure fun _ _ head _ keyword => covers_group (.cons keyword head) rfl

theorem reads_objectTypeAs (nested : ReadsNested parse) {kind : Kind}
    (plain : kind.isPlain = true) :
    Reads Covers (objectTypeAs kind parse) := by
  have member : Reads (Tiles Covers) (do
      let member ← objectTypeMember parse
      return member :: (← single (mark ",") <|> semicolon)) :=
    (reads_objectTypeMember nested).bind fun _ =>
      ((reads_mark _).single.orElse reads_semicolon).bind fun _ =>
        reads_pure fun _ _ ending _ member => .cons member ending
  refine (reads_mark _).bind fun _ => (member.manyUntil (reads_mark _).single).bind fun _ => ?_
  exact reads_pure fun _ _ members _ opening => covers_group (.cons opening members.flatten) plain

/-! ## Primary types -/

theorem reads_constantType : Reads Covers constantType := by
  have constant : Reads Covers (ofKind .string .string <|> ofKind .number .number <|>
      takeIf (·.isWord "true") .trueValue none <|> takeIf (·.isWord "false") .falseValue none <|>
      takeIf (·.isWord "null") .nullValue none <|>
      takeIf (·.isWord "undefined") .undefinedValue none <|> do
        return group .unaryExpression [← mark "-", ← ofKind .number .number]) :=
    (reads_ofKind _ _ rfl).orElse <| (reads_ofKind _ _ rfl).orElse <|
      (reads_takeIf _ _ _ rfl).orElse <| (reads_takeIf _ _ _ rfl).orElse <|
        (reads_takeIf _ _ _ rfl).orElse <| (reads_takeIf _ _ _ rfl).orElse <|
          (reads_mark _).groupOfTwo (reads_ofKind _ _ rfl) rfl
  exact constant.bind fun _ => reads_pure fun _ _ constant => covers_group (.single constant) rfl

theorem reads_tupleMember (nested : ReadsNested parse) : Reads Covers (tupleMember parse) := by
  refine Reads.orElse ?_ (Reads.orElse ?_ ?_)
  · refine reads_identifier.bind fun _ => (reads_mark _).single.optionally.bind fun _ => ?_
    refine (reads_typeAscription nested).bind fun _ => ?_
    refine reads_pure fun _ _ type _ question _ name => ?_
    refine covers_group ((Tiles.cons (name.withRole _) question).append
      (.single (type.withRole _))) ?_
    split <;> rfl
  · refine (reads_mark _).bind fun _ => (looks_check _ _).then fun _ => Reads.ite ?_ ?_
    · refine reads_identifier.bind fun _ => (reads_typeAscription nested).bind fun _ => ?_
      exact reads_pure fun _ _ type _ name _ dots =>
        covers_group (.cons ((covers_group (.cons dots (.single name)) rfl).withRole _)
          (.single (type.withRole _))) rfl
    · refine (nested _).bind fun _ => ?_
      exact reads_pure fun _ _ inner _ dots => covers_group (.cons dots (.single inner)) rfl
  · refine (nested _).bind fun _ => (looks_check _ _).then fun _ => Reads.ite ?_ ?_
    · refine (reads_mark _).bind fun _ => ?_
      exact reads_pure fun _ _ question _ member =>
        covers_group (.cons member (.single question)) rfl
    · exact reads_pure fun _ _ member => member

theorem reads_templateTypePart (nested : ReadsNested parse) :
    Reads Covers (templateTypePart parse) :=
  (reads_ofKind _ _ rfl).orElse <| (reads_ofKind _ _ rfl).orElse <|
    (reads_ofKind _ _ rfl).groupOfThree (nested _) (reads_ofKind _ _ rfl) rfl

theorem reads_templateLiteral (nested : ReadsNested parse) :
    Reads Covers (templateLiteral parse) := by
  refine (reads_ofKind _ _ rfl).bind fun _ => ?_
  refine ((reads_templateTypePart nested).manyUntil (reads_ofKind _ _ rfl)).bind fun _ => ?_
  exact reads_pure fun _ _ parts _ opening => covers_group (.cons opening parts) rfl

theorem reads_primaryType (nested : ReadsNested parse) : Reads Covers (primaryType parse) := by
  have tuple : Reads Covers (do
      return group .tupleType (← bracketed "[" "]" (single (tupleMember parse)))) :=
    (reads_bracketed (reads_tupleMember nested).single _ _).bind fun _ =>
      reads_pure fun _ _ inside => covers_group inside rfl
  refine (looks_check _ _).then fun _ =>
    ((reads_mark _).groupOfThree (nested _) (reads_mark _) rfl).ite ?_
  refine (looks_check _ _).then fun _ => (reads_objectTypeAs nested rfl).ite ?_
  refine (looks_check _ _).then fun _ => tuple.ite ?_
  refine (looks_check _ _).then fun _ => (reads_templateLiteral nested).ite ?_
  refine (looks_check _ _).then fun _ => (reads_takeIf _ _ _ rfl).ite ?_
  refine (looks_check _ _).then fun _ =>
    ((reads_word _).groupOfTwo (reads_queriedValue nested) rfl).ite ?_
  refine (looks_check _ _).then fun _ => (reads_importedType nested).ite ?_
  exact reads_constantType.orElse ((reads_namedType nested).orElse (reads_takeIf _ _ _ rfl))

theorem reads_predefinedType : Reads Covers predefinedType :=
  (looks_check _ _).then fun _ => (reads_takeIf _ _ _ rfl).guarded

/-! ## Operators on types -/

theorem reads_indexStep (nested : ReadsNested parse) (target : Shape) :
    Reads (Behind (Covers target) fun larger? => Covers (larger?.getD target))
      (indexStep parse target) := by
  refine (looks_check _ _).then fun _ => (looks_check _ _).then fun _ => Reads.ite ?_ ?_
  · refine (reads_mark _).bind fun _ => (looks_check _ _).then fun _ => Reads.ite ?_ ?_
    · refine (reads_mark _).bind fun _ => ?_
      exact reads_pure fun _ _ close _ opening _ target =>
        covers_group (.cons target (.cons opening (.single close))) rfl
    · refine (nested _).bind fun _ => (reads_mark _).bind fun _ => ?_
      exact reads_pure fun _ _ close _ key _ opening _ target =>
        covers_group (.cons target (.cons opening (.cons key (.single close)))) rfl
  · exact reads_pure fun _ _ target => target

theorem reads_typeOperand (nested : ReadsNested parse) : Reads Covers (typeOperand parse) := by
  have inferred : Reads Covers (do
      let opening := [← word "infer", ← typeName]
      let bound ← optionally (do return [← word "extends", ← parse .type])
      return group .inferType (opening ++ bound)) := by
    refine (reads_word _).bind fun _ => reads_typeName.bind fun _ => ?_
    refine ((reads_word _).pair (nested _)).optionally.bind fun _ => ?_
    exact reads_pure fun _ _ bound _ name _ keyword =>
      covers_group ((Tiles.cons keyword (.single name)).append bound) rfl
  refine (looks_check _ _).then fun _ => ?_
  refine (looks_check _ _).then fun _ => ((reads_word _).groupOfTwo (nested _) rfl).ite ?_
  refine (looks_check _ _).then fun _ => ((reads_word _).groupOfTwo (nested _) rfl).ite ?_
  refine (looks_check _ _).then fun _ => ((reads_word _).groupOfTwo (reads_word _) rfl).ite ?_
  refine (looks_check _ _).then fun _ => inferred.ite ?_
  exact (reads_predefinedType.orElse (reads_primaryType nested)).bind fun shape =>
    reads_extend (reads_indexStep nested) shape

theorem reads_arrowSignature (nested : ReadsNested parse) :
    Reads (Tiles Covers) (functionType?.arrowSignature parse) := by
  have result : Reads Covers ((do return group .assertsAscription (← assertion parse)) <|>
      typePredicate parse <|> parse .type) := by
    refine Reads.orElse ?_ ((reads_typePredicate nested).orElse (nested _))
    exact (reads_assertion nested).bind fun _ => reads_pure fun _ _ claim => covers_group claim rfl
  refine (reads_typeParameters nested).single.optionally.bind fun _ => ?_
  refine (reads_parameters nested).bind fun _ => (reads_mark _).bind fun _ => ?_
  refine result.bind fun _ => ?_
  exact reads_pure fun _ _ result _ arrow _ list _ types =>
    types.append (.cons list (.cons arrow (.single result)))

theorem reads_functionType? (nested : ReadsNested parse) :
    Reads (fun shape? tokens rest => Tiles Covers shape?.toList tokens rest)
      (functionType? parse) := by
  have arrow : Reads (fun shape? tokens rest => Tiles Covers shape?.toList tokens rest) (do
      return some (group .functionType (← functionType?.arrowSignature parse))) :=
    (reads_arrowSignature nested).bind fun _ => reads_pure fun _ _ head =>
      .single (covers_group head rfl)
  refine (looks_check _ _).then fun _ => (looks_check _ _).then fun _ => ?_
  refine (looks_check _ _).then fun _ => Reads.ite ?_ ?_
  · refine (reads_oneOfWords _).many.bind fun _ => (reads_arrowSignature nested).bind fun _ => ?_
    exact reads_pure fun _ _ head _ words => .single (covers_group (words.append head) rfl)
  · refine (looks_check _ _).then fun _ => arrow.ite ?_
    refine (looks_check _ _).then fun _ => (looks_behindBrackets _).then fun _ => ?_
    exact arrow.ite (reads_pure fun _ => .nil)

theorem reads_typeTerm (nested : ReadsNested parse) : Reads Covers (typeTerm parse) := by
  refine (reads_functionType? nested).bind fun shape? => ?_
  cases shape? with
  | some shape =>
    refine reads_pure fun _ _ covered => ?_
    cases covered with
    | cons own none =>
      cases none
      exact own
  | none =>
    intro tokens answer rest read _ covered
    cases covered
    exact reads_typeOperand nested _ _ _ read

/-! ## Named types -/

open Shape (IsNamed isNamed_group isNamed_leaf)

theorem yields_extend {property : Shape → Prop} {step : Shape → Parser (Option Shape)}
    (steps : ∀ target, Yields (fun larger? => ∀ larger ∈ larger?, property larger) (step target))
    {shape : Shape} (start : property shape) : Yields property (extend step shape) := by
  have goes (fuel : Nat) {shape : Shape} (start : property shape) :
      Yields property (extendWhile step fuel shape) := by
    induction fuel generalizing shape with
    | zero => exact yields_pure start
    | succ fuel inductionHypothesis =>
      refine (steps shape).bind fun larger? holds => ?_
      cases larger? with
      | none => exact yields_pure start
      | some larger => exact inductionHypothesis (holds larger rfl)
  exact fun tokens answer rest read => goes _ start tokens answer rest read

theorem yields_namedType : Yields IsNamed (namedType parse) := by
  have generic {name : Shape} (named : name.IsNamed) : Yields IsNamed (do
      let arguments ← optionally (single (typeArguments parse))
      return if arguments.isEmpty then name
        else group .genericType (name.withRole .name :: arguments)) := by
    refine yields_bind fun arguments => yields_pure ?_
    split
    · exact named
    · exact isNamed_group _ _ rfl
  refine yields_bind fun _ =>
    Yields.ite ?_ ((yields_takeIf (isNamed_leaf _ rfl)).bind fun _ => generic)
  refine yields_bind fun _ => yields_bind fun _ => yields_bind fun _ => yields_bind fun _ => ?_
  exact generic (isNamed_group _ _ rfl)

theorem yields_importedType : Yields IsNamed (importedType parse) := by
  have named (dotted : List (Shape × Shape)) {target : Shape} (start : target.IsNamed) :
      (dotted.foldl (fun target (dot, last) =>
        group .nestedTypeIdentifier [target, dot, last.withRole .name]) target).IsNamed := by
    induction dotted generalizing target with
    | nil => exact start
    | cons _ _ inductionHypothesis => exact inductionHypothesis (isNamed_group _ _ rfl)
  refine yields_bind fun _ => yields_bind fun _ => yields_bind fun dotted => ?_
  refine yields_bind fun types => yields_pure ?_
  split
  · exact named dotted (isNamed_group _ _ rfl)
  · exact isNamed_group _ _ rfl

theorem yields_constantType : Yields IsNamed constantType :=
  yields_bind fun _ => yields_pure (isNamed_group _ _ rfl)

theorem yields_objectType : Yields IsNamed (objectTypeAs .objectType parse) :=
  yields_bind fun _ => yields_bind fun _ => yields_pure (isNamed_group _ _ rfl)

theorem yields_templateLiteral : Yields IsNamed (templateLiteral parse) :=
  yields_bind fun _ => yields_bind fun _ => yields_pure (isNamed_group _ _ rfl)

theorem yields_primaryType : Yields IsNamed (primaryType parse) := by
  have parenthesized : Yields IsNamed (do
      return group .parenthesizedType [← mark "(", ← parse .type, ← mark ")"]) :=
    yields_bind fun _ => yields_bind fun _ => yields_bind fun _ =>
      yields_pure (isNamed_group _ _ rfl)
  have tuple : Yields IsNamed (do
      return group .tupleType (← bracketed "[" "]" (single (tupleMember parse)))) :=
    yields_bind fun _ => yields_pure (isNamed_group _ _ rfl)
  have query : Yields IsNamed (do
      return group .typeQuery [← word "typeof", ← queriedValue parse]) :=
    yields_bind fun _ => yields_bind fun _ => yields_pure (isNamed_group _ _ rfl)
  refine yields_bind fun _ => parenthesized.ite <| yields_bind fun _ => yields_objectType.ite ?_
  refine yields_bind fun _ => tuple.ite <| yields_bind fun _ => yields_templateLiteral.ite ?_
  refine yields_bind fun _ => (yields_takeIf (isNamed_leaf _ rfl)).ite <| yields_bind fun _ => ?_
  refine query.ite <| yields_bind fun _ => yields_importedType.ite ?_
  exact yields_constantType.orElse (yields_namedType.orElse (yields_takeIf (isNamed_leaf _ rfl)))

theorem yields_indexStep (target : Shape) :
    Yields (fun larger? => ∀ larger ∈ larger?, IsNamed larger) (indexStep parse target) := by
  have grouped {kind : Kind} {parts : List Shape}
      (named : kind.isNamed = true) :
      Yields (fun larger? => ∀ larger ∈ larger?, IsNamed larger)
        (pure (some (group kind parts))) :=
    yields_pure fun _ same => Option.mem_some_iff.1 same ▸ isNamed_group _ _ named
  refine yields_bind fun _ => yields_bind fun _ => Yields.ite ?_ (yields_pure (by simp))
  refine yields_bind fun _ => yields_bind fun _ => Yields.ite ?_ ?_
  · exact yields_bind fun _ => grouped rfl
  · exact yields_bind fun _ => yields_bind fun _ => grouped rfl

theorem yields_typeOperand : Yields IsNamed (typeOperand parse) := by
  have prefixed {kind : Kind} {first second : Parser Shape}
      (named : kind.isNamed = true) :
      Yields IsNamed (do return group kind [← first, ← second]) :=
    yields_bind fun _ => yields_bind fun _ => yields_pure (isNamed_group _ _ named)
  have predefined : Yields IsNamed predefinedType :=
    yields_bind fun _ => (yields_takeIf (isNamed_leaf _ rfl)).guarded
  refine yields_bind fun _ => yields_bind fun _ => (prefixed rfl).ite ?_
  refine yields_bind fun _ => (prefixed rfl).ite ?_
  refine yields_bind fun _ => (prefixed rfl).ite <| yields_bind fun _ => Yields.ite ?_ ?_
  · refine yields_bind fun _ => yields_bind fun _ => yields_bind fun _ => ?_
    exact yields_pure (isNamed_group _ _ rfl)
  · exact (predefined.orElse yields_primaryType).bind fun _ named =>
      yields_extend yields_indexStep named

theorem yields_functionType? :
    Yields (fun shape? => ∀ shape ∈ shape?, IsNamed shape) (functionType? parse) := by
  have arrow {kind : Kind} (named : kind.isNamed = true) (front : List Shape) :
      Yields (fun shape? => ∀ shape ∈ shape?, IsNamed shape) (do
        return some (group kind (front ++ (← functionType?.arrowSignature parse)))) :=
    yields_bind fun _ => yields_pure fun _ same =>
      Option.mem_some_iff.1 same ▸ isNamed_group _ _ named
  refine yields_bind fun _ => yields_bind fun _ => yields_bind fun _ => Yields.ite ?_ ?_
  · exact yields_bind fun words => arrow rfl _
  · refine yields_bind fun _ => (arrow rfl []).ite ?_
    refine yields_bind fun _ => yields_bind fun _ => ?_
    exact (arrow rfl []).ite (yields_pure (by simp))

theorem yields_typeTerm : Yields IsNamed (typeTerm parse) := by
  refine yields_functionType?.bind fun shape? named => ?_
  cases shape? with
  | some shape => exact yields_pure (named shape rfl)
  | none => exact yields_typeOperand

/-- A chain of types covers its tokens if one sign does so with what stands on its sides. -/
theorem reads_chainOfTypes {covers : Shape → List Token → List Token → Prop} {sign : String}
    {kind : Kind} {operand : Parser Shape} (each : Reads covers operand)
    (leads : ∀ {member : Shape} {mark : Token} {middle rest : List Token},
      mark.isPunctuation sign = true → covers member middle rest →
        covers (group kind [.leaf .token none, member]) (mark :: middle) rest)
    (joins : ∀ {members member : Shape} {mark : Token} {tokens middle rest : List Token},
      covers members tokens (mark :: middle) → mark.isPunctuation sign = true →
        covers member middle rest →
          covers (group kind [members, .leaf .token none, member]) tokens rest) :
    Reads covers (chainOfTypes sign kind operand) := by
  have leading : Reads (fun signs tokens rest => signs = [] ∧ tokens = rest ∨
      ∃ shape, signs = [shape] ∧ IsMark sign shape tokens rest)
      (optionally (single (mark sign))) :=
    Reads.orElse ((reads_isMark sign).bind fun shape => reads_pure fun _ _ isMark =>
      .inr ⟨shape, rfl, isMark⟩) (reads_pure fun _ => .inl ⟨rfl, rfl⟩)
  have step (target : Shape) :
      Reads (Behind (covers target) fun larger? => covers (larger?.getD target)) (do
        if ← atMark sign then return some (group kind [target, ← mark sign, ← operand])
        else return none) := by
    refine (looks_check _ _).then fun _ => Reads.ite ?_ (reads_pure fun _ _ target => target)
    refine (reads_isMark sign).bind fun _ => each.bind fun _ => reads_pure ?_
    rintro _ _ member _ ⟨rfl, token, isMark, rfl⟩ _ members
    exact joins members isMark member
  refine leading.bind fun signs => each.bind fun first => ?_
  intro tokens answer rest read middle own start signs
  refine reads_extend step _ _ _ _ read _ ?_
  rcases signs with ⟨rfl, rfl⟩ | ⟨shape, rfl, rfl, token, isMark, rfl⟩
  · exact own
  · exact leads isMark own

/-- A named shape and its tokens. -/
def CoversNamed (shape : Shape) (tokens rest : List Token) : Prop :=
  shape.IsNamed ∧ Covers shape tokens rest

theorem reads_unionOfTypes (nested : ReadsNested parse) : Reads Covers (unionOfTypes parse) := by
  have leaf {token : Token} {rest : List Token} :
      Covers (.leaf .token none) (token :: rest) rest := .leaf rfl
  have intersection : Reads CoversNamed
      (chainOfTypes "&" .intersectionType (typeTerm parse)) := by
    refine reads_chainOfTypes (fun tokens answer rest read =>
      ⟨yields_typeTerm tokens answer rest read, reads_typeTerm nested tokens answer rest read⟩) ?_ ?_
    · exact fun _ member =>
        ⟨isNamed_group _ _ rfl, covers_group (.cons leaf (.single member.2)) rfl⟩
    · exact fun members _ member =>
        ⟨isNamed_group _ _ rfl, covers_group (.cons members.2 (.cons leaf (.single member.2))) rfl⟩
  have union : Reads CoversNamed (unionOfTypes parse) := by
    refine reads_chainOfTypes intersection ?_ ?_
    · exact fun isBar member => ⟨isNamed_group _ _ rfl, .leadingBar isBar member.2⟩
    · exact fun members isBar member =>
        ⟨isNamed_group _ _ rfl, .union members.1 members.2 isBar member.2⟩
  exact fun tokens answer rest read => (union tokens answer rest read).2

theorem reads_type (nested : ReadsNested parse) : Reads Covers (type parse) := by
  have subject : Reads Covers (unionOfTypes parse) := reads_unionOfTypes nested
  refine subject.bind fun _ => (looks_check _ _).then fun _ => (looks_check _ _).then fun _ => ?_
  have alone {shape : Shape} :
      Reads (Behind (Covers shape) Covers) (pure shape : Parser Shape) :=
    reads_pure fun _ _ covered => covered
  refine Reads.ite (Reads.orElse ?_ alone) alone
  refine (reads_word _).bind fun _ => subject.bind fun _ => (reads_mark _).bind fun _ => ?_
  refine (nested _).bind fun _ => (reads_mark _).bind fun _ => (nested _).bind fun _ => ?_
  exact reads_pure fun _ _ alternative _ colon _ consequence _ question _ bound _ keyword _
      subject => covers_group (.cons subject (.cons keyword (.cons bound (.cons question
        (.cons consequence (.cons colon (.single alternative))))))) rfl

end CreatorMigration.Grammar
