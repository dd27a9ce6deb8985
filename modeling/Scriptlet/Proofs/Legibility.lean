import Scriptlet.Proofs.Unlined
import Scriptlet.Proofs.WrittenForms

/-!
# Scriptlet — trees can be told apart by their text

A tree is shown as one line of nested parentheses, in which blocks, groups,
calls and parameters all use the same parentheses and blanks. Still nothing is
lost but lines, as long as names are written like names.

* `Operand.lead`, `Stmt.tag` — what the start of a text shows;
* `Operand.legible`, `Expr.legible`, `Stmt.legible` — the text of each part shows
  what it is and where it ends;
* `Program.render_eq_iff_unlined_eq` — programs with the same text are the same
  but for lines.
-/

namespace Scriptlet

-- ---------------------------------------------------------------------------
-- Trees with names
-- ---------------------------------------------------------------------------

mutual

/-- Whether all names in the operand are names. -/
def Operand.isNamed : Operand → Bool
  | .ident name _ => Text.isName name
  | .number _ => true
  | .text _ => true
  | .call callee args _ => Text.isName callee && Expr.isNamedAll args
  | .group inner => inner.isNamed

/-- Whether all names in the expression are names. -/
def Expr.isNamed : Expr → Bool
  | ⟨target, first, rest, _⟩ =>
    target.all Text.isName && first.isNamed && Expr.isNamedRest rest

/-- Whether all names in the expressions are names. -/
def Expr.isNamedAll : List Expr → Bool
  | [] => true
  | e :: es => e.isNamed && Expr.isNamedAll es

/-- Whether all names in the operands behind the operators are names. -/
def Expr.isNamedRest : List (Operator × Operand) → Bool
  | [] => true
  | (_, operand) :: rest => operand.isNamed && Expr.isNamedRest rest

end

mutual

/-- Whether all names in the statement are names. -/
def Stmt.isNamed : Stmt → Bool
  | .expr value => value.isNamed
  | .branch condition thenBody none _ => condition.isNamed && Stmt.isNamedAll thenBody
  | .branch condition thenBody (some elseBody) _ =>
    condition.isNamed && Stmt.isNamedAll thenBody && Stmt.isNamedAll elseBody
  | .loop condition body _ => condition.isNamed && Stmt.isNamedAll body
  | .ret result _ => result.isNamed
  | .define name params body _ =>
    Text.isName name && params.all Text.isName && Stmt.isNamedAll body

/-- Whether all names in the statements are names. -/
def Stmt.isNamedAll : List Stmt → Bool
  | [] => true
  | s :: ss => s.isNamed && Stmt.isNamedAll ss

end

/-- Whether all names of variables, functions and parameters in the program are
names. -/
def Program.isNamed (program : Program) : Bool :=
  Stmt.isNamedAll program

theorem Expr.isNamedAll_eq_all (es : List Expr) : Expr.isNamedAll es = es.all Expr.isNamed := by
  induction es with
  | nil => rfl
  | cons e es ih => rw [Expr.isNamedAll, ih, List.all_cons]

theorem Stmt.isNamedAll_eq_all (ss : List Stmt) : Stmt.isNamedAll ss = ss.all Stmt.isNamed := by
  induction ss with
  | nil => rfl
  | cons s ss ih => rw [Stmt.isNamedAll, ih, List.all_cons]

/-- The operand without lines. -/
abbrev Operand.unlined (operand : Operand) : Operand :=
  operand.mapLines fun _ => 0

/-- The expression without lines. -/
abbrev Expr.unlined (e : Expr) : Expr :=
  e.mapLines fun _ => 0

/-- The statement without lines. -/
abbrev Stmt.unlined (s : Stmt) : Stmt :=
  s.mapLines fun _ => 0

theorem Expr.mapLinesAll_eq_map (f : Nat → Nat) (es : List Expr) :
    Expr.mapLinesAll f es = es.map (Expr.mapLines f) := by
  induction es with
  | nil => rw [Expr.mapLinesAll, List.map_nil]
  | cons e es ih => rw [Expr.mapLinesAll, ih, List.map_cons]

theorem Stmt.mapLinesAll_eq_map (f : Nat → Nat) (ss : List Stmt) :
    Stmt.mapLinesAll f ss = ss.map (Stmt.mapLines f) := by
  induction ss with
  | nil => rw [Stmt.mapLinesAll, List.map_nil]
  | cons s ss ih => rw [Stmt.mapLinesAll, ih, List.map_cons]

-- ---------------------------------------------------------------------------
-- How parts of an expression start
-- ---------------------------------------------------------------------------

/-- What the first character of an operand shows. -/
inductive Lead where
  | word
  | numeral
  | quotation
  | parenthesis
deriving DecidableEq

/-- What a character shows at the start of an operand. -/
def Lead.ofChar (c : Char) : Lead :=
  if Text.isWordStart c then .word
  else if c = '"' then .quotation
  else if c = '(' then .parenthesis
  else .numeral

/-- What the operand starts with. -/
def Operand.lead : Operand → Lead
  | .ident _ _ => .word
  | .number _ => .numeral
  | .text _ => .quotation
  | .call _ _ _ => .word
  | .group _ => .parenthesis

/-- A digit or the sign of a negative number leads to a number. -/
theorem Lead.ofChar_of_isNumeral {c : Char} (h : Text.isNumeral c = true) :
    Lead.ofChar c = .numeral := by
  rcases (Bool.or_eq_true _ _).mp h with hDigit | hMinus
  · have hOthers : c ≠ '"' ∧ c ≠ '(' := by
      constructor <;> rintro rfl <;> cases hDigit
    rw [Lead.ofChar, isWordStart_of_isDigit hDigit, if_neg Bool.false_ne_true,
      if_neg hOthers.1, if_neg hOthers.2]
  · rw [beq_iff_eq.mp hMinus]
    decide

/-- The part of an expression up to the assignment sign. -/
def Expr.assignment : Option String → List Char
  | some name => name.toList ++ [' ', '=', ' ']
  | none => []

/-- An expression stands in parentheses, with the assignment in front of its
operands. -/
theorem Expr.toList_render (target : Option String) (first : Operand)
    (rest : List (Operator × Operand)) (line : Nat) :
    (Expr.mk target first rest line).render.toList =
      '(' :: (Expr.assignment target ++ (first.render.toList ++
        ((Expr.renderRest rest).toList ++ [')']))) := by
  cases target <;> simp [Expr.render, Expr.assignment]

/-- The first character of an operand shows its sort, up to whether a name is
called, and it does not start a tag. -/
theorem Operand.exists_lead {operand : Operand} (h : operand.isNamed = true) :
    ∃ c tail, operand.render.toList = c :: tail ∧ c ≠ '<' ∧ Lead.ofChar c = operand.lead := by
  -- names of variables and names of calls are both words, hence one lemma for the two
  have hWord : ∀ {name : String} (more : List Char), Text.isName name = true →
      ∃ c tail, name.toList ++ more = c :: tail ∧ c ≠ '<' ∧ Lead.ofChar c = .word := by
    intro name more hName
    obtain ⟨c, cs, hChars, hStart, _⟩ := Text.exists_of_isName hName
    have hTag : c ≠ '<' := by
      rintro rfl
      exact absurd hStart (by decide)
    exact ⟨c, cs ++ more, by rw [hChars, List.cons_append], hTag,
      by rw [Lead.ofChar, if_pos hStart]⟩
  cases operand with
  | ident name line =>
    obtain ⟨c, tail, hChars, hLead⟩ := hWord [] h
    exact ⟨c, tail, by rw [Operand.render, ← hChars, List.append_nil], hLead⟩
  | number value =>
    obtain ⟨c, tail, hChars⟩ := List.exists_cons_of_ne_nil (Text.toString_ne_nil value.toInt)
    have hNumeral : Text.isNumeral c = true :=
      Text.isNumeral_of_mem_toString c (by rw [hChars]; exact List.mem_cons_self)
    have hTag : c ≠ '<' := by
      rintro rfl
      exact absurd hNumeral (by decide)
    exact ⟨c, tail, by rw [Operand.render, hChars], hTag, Lead.ofChar_of_isNumeral hNumeral⟩
  | text content =>
    have hLead : '"' ≠ '<' ∧ Lead.ofChar '"' = .quotation := by decide
    refine ⟨'"', content.toList.flatMap Text.quoteChar ++ ['"'], ?_, hLead⟩
    rw [Operand.render, Text.toList_quote]
    rfl
  | call callee args line =>
    rw [Operand.isNamed, Bool.and_eq_true] at h
    rw [Operand.render]
    simp only [String.toList_append, List.append_assoc]
    exact hWord _ h.1
  | group inner =>
    have hLead : '(' ≠ '<' ∧ Lead.ofChar '(' = .parenthesis := by decide
    obtain ⟨target, first, rest, line⟩ := inner
    exact ⟨'(', _, by rw [Operand.render, Expr.toList_render], hLead⟩

/-- Two operands with the same text in front are of the same sort. -/
theorem Operand.lead_eq {a b : Operand} (ha : a.isNamed = true) (hb : b.isNamed = true)
    {rest rest' : List Char} (h : a.render.toList ++ rest = b.render.toList ++ rest') :
    a.lead = b.lead := by
  obtain ⟨c, tail, hChars, _, hLead⟩ := Operand.exists_lead ha
  obtain ⟨c', tail', hChars', _, hLead'⟩ := Operand.exists_lead hb
  rw [hChars, hChars'] at h
  rw [← hLead, ← hLead', (List.cons.inj h).1]

/-- A call is a name with its arguments in parentheses directly behind it. -/
theorem Operand.toList_render_call (callee : String) (args : List Expr) (line : Nat) :
    (Operand.call callee args line).render.toList =
      callee.toList ++ '(' :: ([' '].intercalate (args.map (·.render.toList)) ++ [')']) := by
  simp [Operand.render, String.toList_intercalate, Expr.renderAll_eq_map, Function.comp_def]

/-- A name before a blank or a closing parenthesis is not called. -/
theorem Operand.name_ne_call {name callee : String} (hName : Text.isName name = true)
    (hCallee : Text.isName callee = true) {args : List Expr} {line : Nat} {rest rest' : List Char}
    (hEnd : Text.Delimited rest) :
    name.toList ++ rest ≠ (Operand.call callee args line).render.toList ++ rest' := by
  intro h
  -- the name is cut where a word ends, so that the character behind it has to be both
  rw [Operand.toList_render_call, List.append_assoc] at h
  obtain ⟨_, hRest⟩ := Text.name_legible hName hCallee hEnd.endsWord (Text.endsWord_open _) h
  obtain ⟨tail, rfl | rfl⟩ := hEnd
  · exact absurd (List.cons.inj hRest).1 (by decide)
  · exact absurd (List.cons.inj hRest).1 (by decide)

-- ---------------------------------------------------------------------------
-- Operands and expressions
-- ---------------------------------------------------------------------------

/-- The text of the operand shows what it is, and where it ends if an item of a
list may end there. -/
def Operand.Legible (a : Operand) : Prop :=
  ∀ b : Operand, a.isNamed = true → b.isNamed = true →
    Text.Tells Text.Delimited a.render.toList b.render.toList (a.unlined = b.unlined)

/-- The text of the expression shows what it is and where it ends. -/
def Expr.Legible (e : Expr) : Prop :=
  ∀ other : Expr, e.isNamed = true → other.isNamed = true →
    Text.Tells (fun _ => True) e.render.toList other.render.toList (e.unlined = other.unlined)

/-- A variable is not taken for a call: no parenthesis follows its name. -/
theorem Operand.legible_ident (name : String) (line : Nat) : (Operand.ident name line).Legible := by
  intro b ha hb rest rest' hEnd hEnd' h
  have hLead := Operand.lead_eq ha hb h
  rw [Operand.render] at h
  cases b with
  | ident name' line' =>
    rw [Operand.render] at h
    obtain ⟨rfl, hRest⟩ := Text.name_legible ha hb hEnd.endsWord hEnd'.endsWord h
    exact ⟨by rw [Operand.unlined, Operand.mapLines, Operand.unlined, Operand.mapLines], hRest⟩
  | call callee args line' =>
    rw [Operand.isNamed, Bool.and_eq_true] at hb
    exact absurd h (Operand.name_ne_call ha hb.1 hEnd)
  | number | text | group => cases hLead

/-- A number ends before the first character that is no digit. -/
theorem Operand.legible_number (value : Int64) : (Operand.number value).Legible := by
  intro b ha hb rest rest' hEnd hEnd' h
  have hLead := Operand.lead_eq ha hb h
  cases b with
  | number value' =>
    rw [Operand.render, Operand.render] at h
    obtain ⟨rfl, hRest⟩ := Text.number_legible hEnd hEnd' h
    exact ⟨rfl, hRest⟩
  | ident | call | text | group => cases hLead

/-- A text ends at its closing quote, as quotes in it are escaped. -/
theorem Operand.legible_text (content : String) : (Operand.text content).Legible := by
  intro b ha hb rest rest' hEnd hEnd' h
  have hLead := Operand.lead_eq ha hb h
  cases b with
  | text content' =>
    rw [Operand.render, Operand.render] at h
    obtain ⟨rfl, hRest⟩ := Text.quote_legible h
    exact ⟨rfl, hRest⟩
  | ident | call | number | group => cases hLead

/-- A group ends where the expression in it does. -/
theorem Operand.legible_group {inner : Expr} (hInner : inner.Legible) :
    (Operand.group inner).Legible := by
  intro b ha hb rest rest' hEnd hEnd' h
  have hLead := Operand.lead_eq ha hb h
  cases b with
  | group inner' =>
    rw [Operand.render, Operand.render] at h
    obtain ⟨hSame, hRest⟩ := hInner inner' ha hb trivial trivial h
    refine ⟨?_, hRest⟩
    rw [Operand.unlined, Operand.mapLines, Operand.unlined, Operand.mapLines]
    exact congrArg Operand.group hSame
  | ident | call | number | text => cases hLead

/-- Arguments in parentheses show what they are and where they end. -/
theorem Expr.args_legible {args args' : List Expr} (hArgs : ∀ e ∈ args, e.Legible)
    (hNamed : Expr.isNamedAll args = true) (hNamed' : Expr.isNamedAll args' = true)
    {rest rest' : List Char}
    (h : [' '].intercalate (args.map (·.render.toList)) ++ ')' :: rest =
      [' '].intercalate (args'.map (·.render.toList)) ++ ')' :: rest') :
    args.map Expr.unlined = args'.map Expr.unlined ∧ rest = rest' := by
  rw [Expr.isNamedAll_eq_all, List.all_eq_true] at hNamed hNamed'
  refine Text.closed_legible ?_ ?_ h
  · intro e he e' he' r r' _ _ hText
    exact hArgs e he e' (hNamed e he) (hNamed' e' he') trivial trivial hText
  -- no argument starts with the parenthesis that closes the list
  · rintro ⟨target, first, more, line⟩ _ r
    rw [Expr.toList_render]
    exact fun hHead => absurd (Option.some.inj hHead) (by decide)

/-- A call is legible if its arguments are. -/
theorem Operand.legible_call (callee : String) {args : List Expr} (hArgs : ∀ e ∈ args, e.Legible)
    (line : Nat) : (Operand.call callee args line).Legible := by
  intro b ha hb rest rest' hEnd hEnd' h
  have hLead := Operand.lead_eq ha hb h
  rw [Operand.isNamed, Bool.and_eq_true] at ha
  cases b with
  | ident name line' =>
    rw [Operand.render.eq_def (.ident name line')] at h
    exact absurd h.symm (Operand.name_ne_call hb ha.1 hEnd')
  | call callee' args' line' =>
    rw [Operand.isNamed, Bool.and_eq_true] at hb
    simp only [Operand.toList_render_call, List.append_assoc, List.cons_append,
      List.nil_append] at h
    obtain ⟨rfl, hOpen⟩ :=
      Text.name_legible ha.1 hb.1 (Text.endsWord_open _) (Text.endsWord_open _) h
    obtain ⟨hSame, hRest⟩ := Expr.args_legible hArgs ha.2 hb.2 (List.cons.inj hOpen).2
    refine ⟨?_, hRest⟩
    rw [Operand.unlined, Operand.mapLines, Operand.unlined, Operand.mapLines,
      Expr.mapLinesAll_eq_map, Expr.mapLinesAll_eq_map]
    exact congrArg (Operand.call callee · 0) hSame
  | number | text | group => cases hLead

/-- Each operator stands between blanks, in front of its operand. -/
theorem Expr.toList_renderRest_cons (op : Operator) (operand : Operand)
    (rest : List (Operator × Operand)) :
    (Expr.renderRest ((op, operand) :: rest)).toList =
      ' ' :: (op.symbol.toList ++ ' ' :: (operand.render.toList ++
        (Expr.renderRest rest).toList)) := by
  simp [Expr.renderRest]

/-- The first operand of an expression ends at a blank or at the closing
parenthesis. -/
theorem Expr.delimited_rest (rest : List (Operator × Operand)) (tail : List Char) :
    Text.Delimited ((Expr.renderRest rest).toList ++ ')' :: tail) := by
  cases rest with
  | nil => exact ⟨tail, Or.inr (by simp [Expr.renderRest])⟩
  | cons term rest =>
    obtain ⟨op, operand⟩ := term
    rw [Expr.toList_renderRest_cons]
    exact Text.delimited_blank _

/-- An operator ends at the blank behind it. -/
theorem Operator.symbol_legible {op op' : Operator} {rest rest' : List Char}
    (h : op.symbol.toList ++ ' ' :: rest = op'.symbol.toList ++ ' ' :: rest') :
    op = op' ∧ rest = rest' := by
  -- no symbol has a blank in it
  have hAll : ∀ op : Operator, ∀ c ∈ op.symbol.toList, (c != ' ') = true := by
    intro op
    cases op <;> simp [Operator.symbol]
  have hEnd : ∀ tail, EndsClass (· != ' ') (' ' :: tail) := by
    intro tail
    simp [EndsClass]
  obtain ⟨hSymbol, hRest⟩ := Text.run_legible (hAll op) (hAll op') (hEnd _) (hEnd _) h
  have hSome : some op = some op' := by
    rw [← Operator.ofSymbol?_symbol op, ← Operator.ofSymbol?_symbol op',
      String.toList_inj.mp hSymbol]
  exact ⟨Option.some.inj hSome, (List.cons.inj hRest).2⟩

/-- The terms behind the first operand show what they are and where they end. -/
theorem Expr.rest_legible {rest rest' : List (Operator × Operand)}
    (hRest : ∀ term ∈ rest, term.2.Legible) (hNamed : Expr.isNamedRest rest = true)
    (hNamed' : Expr.isNamedRest rest' = true) {tail tail' : List Char}
    (h : (Expr.renderRest rest).toList ++ ')' :: tail =
      (Expr.renderRest rest').toList ++ ')' :: tail') :
    Expr.mapLinesRest (fun _ => 0) rest = Expr.mapLinesRest (fun _ => 0) rest' ∧ tail = tail' := by
  have hNil : ∀ tail : List Char, (Expr.renderRest []).toList ++ ')' :: tail = ')' :: tail := by
    simp [Expr.renderRest]
  -- the two lists of terms are read together: one of them cannot end before the other
  induction rest generalizing rest' with
  | nil =>
    cases rest' with
    | nil =>
      rw [hNil, hNil] at h
      exact ⟨rfl, (List.cons.inj h).2⟩
    | cons term' rest' =>
      obtain ⟨op', operand'⟩ := term'
      rw [hNil, Expr.toList_renderRest_cons] at h
      exact absurd (List.cons.inj h).1 (by decide)
  | cons term rest ih =>
    obtain ⟨op, operand⟩ := term
    cases rest' with
    | nil =>
      rw [hNil, Expr.toList_renderRest_cons] at h
      exact absurd (List.cons.inj h).1 (by decide)
    | cons term' rest' =>
      obtain ⟨op', operand'⟩ := term'
      rw [Expr.isNamedRest, Bool.and_eq_true] at hNamed hNamed'
      obtain ⟨hOperand, hLater⟩ := List.forall_mem_cons.mp hRest
      simp only [Expr.toList_renderRest_cons, List.cons_append, List.append_assoc, List.cons.injEq,
        true_and] at h
      obtain ⟨rfl, hTerms⟩ := Operator.symbol_legible h
      obtain ⟨hFirst, hMore⟩ := hOperand operand' hNamed.1 hNamed'.1 (Expr.delimited_rest rest tail)
        (Expr.delimited_rest rest' tail') hTerms
      obtain ⟨hSame, hTail⟩ := ih hLater hNamed.2 hNamed'.2 hMore
      refine ⟨?_, hTail⟩
      rw [Expr.mapLinesRest, Expr.mapLinesRest, hSame]
      exact congrArg (fun operand => (op, operand) :: _) hFirst

/-- An operand with operators behind it is not taken for the target of an
assignment: no operator is a lone equals sign. -/
theorem Expr.unassigned_ne_assigned {first : Operand} (hFirst : first.isNamed = true)
    {name : String} (hName : Text.isName name = true) (rest : List (Operator × Operand))
    (tail tail' : List Char) :
    first.render.toList ++ ((Expr.renderRest rest).toList ++ ')' :: tail) ≠
      name.toList ++ ' ' :: '=' :: ' ' :: tail' := by
  intro h
  have hBlank := Text.delimited_blank ('=' :: ' ' :: tail')
  have hNamed : (Operand.ident name 0).isNamed = true := hName
  have hIdent : first.render.toList ++ ((Expr.renderRest rest).toList ++ ')' :: tail) =
      (Operand.ident name 0).render.toList ++ ' ' :: '=' :: ' ' :: tail' := by
    rw [h, Operand.render]
  -- such an operand would have to be a word
  have hLead := Operand.lead_eq hFirst hNamed hIdent
  cases first with
  | ident name' line =>
    rw [Operand.render] at h
    obtain ⟨_, hRest⟩ := Text.name_legible hFirst hName (Expr.delimited_rest rest tail).endsWord
      hBlank.endsWord h
    cases rest with
    | nil => simp [Expr.renderRest] at hRest
    | cons term rest =>
      obtain ⟨op, operand⟩ := term
      rw [Expr.toList_renderRest_cons] at hRest
      -- no operator has the symbol that stands behind a target
      cases op <;> simp [Operator.symbol] at hRest
  | call callee args line =>
    rw [Operand.isNamed, Bool.and_eq_true] at hFirst
    exact Operand.name_ne_call hName hFirst.1 hBlank h.symm
  | number | text | group => cases hLead

/-- The first operand and the terms behind it show what they are and where they
end. -/
theorem Expr.terms_legible {first first' : Operand} {rest rest' : List (Operator × Operand)}
    (hFirst : first.Legible) (hRest : ∀ term ∈ rest, term.2.Legible)
    (hNamed : (first.isNamed && Expr.isNamedRest rest) = true)
    (hNamed' : (first'.isNamed && Expr.isNamedRest rest') = true) {tail tail' : List Char}
    (h : first.render.toList ++ ((Expr.renderRest rest).toList ++ ')' :: tail) =
      first'.render.toList ++ ((Expr.renderRest rest').toList ++ ')' :: tail')) :
    first.unlined = first'.unlined ∧
      Expr.mapLinesRest (fun _ => 0) rest = Expr.mapLinesRest (fun _ => 0) rest' ∧
      tail = tail' := by
  rw [Bool.and_eq_true] at hNamed hNamed'
  obtain ⟨hSame, hMore⟩ := hFirst first' hNamed.1 hNamed'.1 (Expr.delimited_rest rest tail)
    (Expr.delimited_rest rest' tail') h
  exact ⟨hSame, Expr.rest_legible hRest hNamed.2 hNamed'.2 hMore⟩

/-- **An expression is legible if its operands are.** -/
theorem Expr.legible_of_operands (target : Option String) {first : Operand}
    {rest : List (Operator × Operand)} (hFirst : first.Legible)
    (hRest : ∀ term ∈ rest, term.2.Legible) (line : Nat) :
    (Expr.mk target first rest line).Legible := by
  rintro ⟨target', first', rest', line'⟩ hNamed hNamed' tail tail' _ _ h
  rw [Expr.isNamed, Bool.and_assoc, Bool.and_eq_true] at hNamed hNamed'
  obtain ⟨hTarget, hNamedTerms⟩ := hNamed
  obtain ⟨hTarget', hNamedTerms'⟩ := hNamed'
  simp only [Expr.toList_render, List.cons_append, List.append_assoc, List.nil_append,
    List.cons.injEq, true_and] at h
  -- the targets are read first: once they are the same, the operands decide
  have hTerms : target = target' →
      first.render.toList ++ ((Expr.renderRest rest).toList ++ ')' :: tail) =
        first'.render.toList ++ ((Expr.renderRest rest').toList ++ ')' :: tail') →
      (Expr.mk target first rest line).unlined = (Expr.mk target' first' rest' line').unlined ∧
        tail = tail' := by
    rintro rfl hText
    obtain ⟨hSame, hSameRest, hTail⟩ :=
      Expr.terms_legible hFirst hRest hNamedTerms hNamedTerms' hText
    refine ⟨?_, hTail⟩
    rw [Expr.unlined, Expr.mapLines, Expr.unlined, Expr.mapLines, hSameRest]
    exact congrArg (fun operand => Expr.mk target operand _ 0) hSame
  cases target with
  | none =>
    cases target' with
    | none => exact hTerms rfl h
    | some name' =>
      simp only [Expr.assignment, List.append_assoc, List.cons_append, List.nil_append] at h
      have hNamedFirst := ((Bool.and_eq_true _ _).mp hNamedTerms).1
      exact absurd h (Expr.unassigned_ne_assigned hNamedFirst hTarget' rest tail _)
  | some name =>
    simp only [Expr.assignment, List.append_assoc, List.cons_append, List.nil_append] at h
    cases target' with
    | none =>
      have hNamedFirst' := ((Bool.and_eq_true _ _).mp hNamedTerms').1
      exact absurd h.symm (Expr.unassigned_ne_assigned hNamedFirst' hTarget rest' tail' _)
    | some name' =>
      simp only [List.append_assoc, List.cons_append, List.nil_append] at h
      obtain ⟨rfl, hText⟩ := Text.name_legible hTarget hTarget'
        (Text.delimited_blank _).endsWord (Text.delimited_blank _).endsWord h
      simp only [List.cons.injEq, true_and] at hText
      exact hTerms rfl hText

mutual

/-- Every operand is legible. -/
theorem Operand.legible : (operand : Operand) → operand.Legible
  | .ident name line => Operand.legible_ident name line
  | .number value => Operand.legible_number value
  | .text content => Operand.legible_text content
  | .call callee args line => Operand.legible_call callee (Expr.legible_all args) line
  | .group inner => Operand.legible_group inner.legible

/-- **Every expression is legible.** -/
theorem Expr.legible : (e : Expr) → e.Legible
  | ⟨target, first, rest, line⟩ =>
    Expr.legible_of_operands target first.legible (Expr.legible_rest rest) line

/-- All arguments of a call are legible. -/
theorem Expr.legible_all : (es : List Expr) → ∀ e ∈ es, e.Legible
  | [] => List.forall_mem_nil _
  | e :: es => List.forall_mem_cons.mpr ⟨e.legible, Expr.legible_all es⟩

/-- All operands behind operators are legible. -/
theorem Expr.legible_rest : (rest : List (Operator × Operand)) → ∀ term ∈ rest, term.2.Legible
  | [] => List.forall_mem_nil _
  | (_, operand) :: rest => List.forall_mem_cons.mpr ⟨operand.legible, Expr.legible_rest rest⟩

end

-- ---------------------------------------------------------------------------
-- Statements
-- ---------------------------------------------------------------------------

/-- The text of the statement shows what it is and where it ends. -/
def Stmt.Legible (s : Stmt) : Prop :=
  ∀ other : Stmt, s.isNamed = true → other.isNamed = true →
    Text.Tells (fun _ => True) s.render.toList other.render.toList (s.unlined = other.unlined)

/-- The statements of a block with blanks between them. -/
def Stmt.inBlock (ss : List Stmt) : List Char :=
  [' '].intercalate (ss.map (·.render.toList))

/-- A block is its statements in parentheses. -/
theorem Program.toList_renderBlock (ss : List Stmt) :
    (Program.renderBlock (Stmt.renderAll ss)).toList = '(' :: (Stmt.inBlock ss ++ [')']) := by
  simp [Program.renderBlock, Stmt.inBlock, String.toList_intercalate, Stmt.renderAll_eq_map,
    Function.comp_def]

/-- The letter behind the sign that opens a tag. -/
def Text.tag : List Char → Option Char
  | '(' :: '<' :: c :: _ => some c
  | _ => none

/-- The letter with which the tag of the statement starts. Expressions have no
tag. -/
def Stmt.tag : Stmt → Option Char
  | .expr _ => none
  | .branch _ _ _ _ => some 'i'
  | .loop _ _ _ => some 'w'
  | .ret _ _ => some 'r'
  | .define _ _ _ _ => some 'd'

/-- An expression has no tag: what stands behind its parenthesis is a name or an
operand, which does not start with the sign of a tag. -/
theorem Expr.tag_render {e : Expr} (h : e.isNamed = true) (rest : List Char) :
    Text.tag (e.render.toList ++ rest) = none := by
  obtain ⟨target, first, terms, line⟩ := e
  simp only [Expr.isNamed, Bool.and_eq_true] at h
  have hTag : ∀ (c : Char) (tail : List Char), c ≠ '<' → Text.tag ('(' :: c :: tail) = none := by
    intro c tail hc
    unfold Text.tag
    split
    next hText => exact absurd (List.cons.inj (List.cons.inj hText).2).1 hc
    next => rfl
  rw [Expr.toList_render]
  cases target with
  | none =>
    obtain ⟨c, tail, hChars, hc, _⟩ := Operand.exists_lead h.1.2
    rw [hChars]
    exact hTag c _ hc
  | some name =>
    have hNamed : (Operand.ident name 0).isNamed = true := h.1.1
    obtain ⟨c, tail, hChars, hc, _⟩ := Operand.exists_lead hNamed
    rw [Operand.render] at hChars
    rw [Expr.assignment, hChars]
    exact hTag c _ hc

/-- The text of a statement shows its tag, whatever follows. -/
theorem Stmt.tag_render {s : Stmt} (h : s.isNamed = true) (rest : List Char) :
    Text.tag (s.render.toList ++ rest) = s.tag := by
  cases s with
  | expr value =>
    rw [Stmt.render]
    exact Expr.tag_render h rest
  | branch condition thenBody elseBody line =>
    cases elseBody <;> simp [Stmt.render, Text.tag, Stmt.tag]
  | loop condition body line => simp [Stmt.render, Text.tag, Stmt.tag]
  | ret result line => simp [Stmt.render, Text.tag, Stmt.tag]
  | define name params body line =>
    simp [Stmt.render, FunctionDef.renderWith, Text.tag, Stmt.tag]

/-- Two statements with the same text in front have the same tag. -/
theorem Stmt.tag_eq {s s' : Stmt} (h : s.isNamed = true) (h' : s'.isNamed = true)
    {rest rest' : List Char} (hText : s.render.toList ++ rest = s'.render.toList ++ rest') :
    s.tag = s'.tag := by
  rw [← Stmt.tag_render h rest, ← Stmt.tag_render h' rest', hText]

/-- Every statement starts with a parenthesis, so that the end of a block is not
taken for one. -/
theorem Stmt.exists_toList_render (s : Stmt) : ∃ tail, s.render.toList = '(' :: tail := by
  cases s with
  | expr value =>
    obtain ⟨target, first, rest, line⟩ := value
    exact ⟨_, by rw [Stmt.render, Expr.toList_render]⟩
  | branch condition thenBody elseBody line => cases elseBody <;> simp [Stmt.render]
  | loop condition body line => simp [Stmt.render]
  | ret result line => simp [Stmt.render]
  | define name params body line => simp [Stmt.render, FunctionDef.renderWith]

/-- A block in parentheses shows what it is and where it ends. -/
theorem Stmt.block_legible {ss ss' : List Stmt} (hBlock : ∀ s ∈ ss, s.Legible)
    (hNamed : Stmt.isNamedAll ss = true) (hNamed' : Stmt.isNamedAll ss' = true)
    {rest rest' : List Char}
    (h : Stmt.inBlock ss ++ ')' :: rest = Stmt.inBlock ss' ++ ')' :: rest') :
    Stmt.mapLinesAll (fun _ => 0) ss = Stmt.mapLinesAll (fun _ => 0) ss' ∧ rest = rest' := by
  rw [Stmt.isNamedAll_eq_all, List.all_eq_true] at hNamed hNamed'
  rw [Stmt.mapLinesAll_eq_map, Stmt.mapLinesAll_eq_map]
  refine Text.closed_legible ?_ ?_ h
  · intro s hs s' hs' r r' _ _ hText
    exact hBlock s hs s' (hNamed s hs) (hNamed' s' hs') trivial trivial hText
  · intro s _ r
    obtain ⟨tail, hChars⟩ := s.exists_toList_render
    rw [hChars]
    exact fun hHead => absurd (Option.some.inj hHead) (by decide)

/-- A condition with a block behind it shows what it is and where it ends. -/
theorem Stmt.guarded_legible {condition condition' : Expr} {ss ss' : List Stmt}
    (hBlock : ∀ s ∈ ss, s.Legible) (hNamed : (condition.isNamed && Stmt.isNamedAll ss) = true)
    (hNamed' : (condition'.isNamed && Stmt.isNamedAll ss') = true) {rest rest' : List Char}
    (h : condition.render.toList ++ '=' :: '>' :: '(' :: (Stmt.inBlock ss ++ ')' :: rest) =
      condition'.render.toList ++ '=' :: '>' :: '(' :: (Stmt.inBlock ss' ++ ')' :: rest')) :
    condition.unlined = condition'.unlined ∧
      Stmt.mapLinesAll (fun _ => 0) ss = Stmt.mapLinesAll (fun _ => 0) ss' ∧ rest = rest' := by
  rw [Bool.and_eq_true] at hNamed hNamed'
  obtain ⟨hSame, hArrow⟩ :=
    condition.legible condition' hNamed.1 hNamed'.1 trivial trivial h
  simp only [List.cons.injEq, true_and] at hArrow
  exact ⟨hSame, Stmt.block_legible hBlock hNamed.2 hNamed'.2 hArrow⟩

/-- An expression as a statement is legible, since only it has no tag. -/
theorem Stmt.legible_expr (value : Expr) : (Stmt.expr value).Legible := by
  intro other hNamed hNamed' rest rest' _ _ h
  have hTag := Stmt.tag_eq hNamed hNamed' h
  cases other with
  | expr value' =>
    rw [Stmt.render, Stmt.render] at h
    obtain ⟨hSame, hRest⟩ := value.legible value' hNamed hNamed' trivial trivial h
    refine ⟨?_, hRest⟩
    rw [Stmt.unlined, Stmt.mapLines, Stmt.unlined, Stmt.mapLines]
    exact congrArg Stmt.expr hSame
  | branch | loop | ret | define => cases hTag

/-- A `return` ends where the expression in it does. -/
theorem Stmt.legible_ret (result : Expr) (line : Nat) : (Stmt.ret result line).Legible := by
  intro other hNamed hNamed' rest rest' _ _ h
  have hTag := Stmt.tag_eq hNamed hNamed' h
  cases other with
  | ret result' line' =>
    simp only [Stmt.render, String.toList_append, List.append_assoc] at h
    obtain ⟨hSame, hClose⟩ :=
      result.legible result' hNamed hNamed' trivial trivial (List.append_cancel_left h)
    refine ⟨?_, List.append_cancel_left hClose⟩
    rw [Stmt.unlined, Stmt.mapLines, Stmt.unlined, Stmt.mapLines]
    exact congrArg (Stmt.ret · 0) hSame
  | expr | branch | loop | define => cases hTag

/-- A loop is legible if its block is. -/
theorem Stmt.legible_loop (condition : Expr) {body : List Stmt} (hBody : ∀ s ∈ body, s.Legible)
    (line : Nat) : (Stmt.loop condition body line).Legible := by
  have hText : ∀ (condition : Expr) (body : List Stmt) (line : Nat) (rest : List Char),
      (Stmt.loop condition body line).render.toList ++ rest = "(<while>".toList ++
        (condition.render.toList ++ '=' :: '>' :: '(' :: (Stmt.inBlock body ++ ')' ::
          ')' :: rest)) := by
    simp [Stmt.render, Program.toList_renderBlock]
  intro other hNamed hNamed' rest rest' _ _ h
  have hTag := Stmt.tag_eq hNamed hNamed' h
  cases other with
  | loop condition' body' line' =>
    rw [hText, hText] at h
    obtain ⟨hSame, hBlock, hClose⟩ :=
      Stmt.guarded_legible hBody hNamed hNamed' (List.append_cancel_left h)
    refine ⟨?_, (List.cons.inj hClose).2⟩
    rw [Stmt.unlined, Stmt.mapLines, Stmt.unlined, Stmt.mapLines, hBlock]
    exact congrArg (Stmt.loop · _ 0) hSame
  | expr | branch | ret | define => cases hTag

/-- The part of an `if` behind its first block. -/
def Stmt.alternative : Option (List Stmt) → List Char
  | some ss => '!' :: '(' :: (Stmt.inBlock ss ++ [')', ')'])
  | none => [')']

/-- An `if` is its condition, its first block and what is left behind that. -/
theorem Stmt.toList_render_branch (condition : Expr) (thenBody : List Stmt)
    (elseBody : Option (List Stmt)) (line : Nat) (rest : List Char) :
    (Stmt.branch condition thenBody elseBody line).render.toList ++ rest = "(<if>".toList ++
      (condition.render.toList ++ '=' :: '>' :: '(' :: (Stmt.inBlock thenBody ++ ')' ::
        (Stmt.alternative elseBody ++ rest))) := by
  cases elseBody <;> simp [Stmt.render, Program.toList_renderBlock, Stmt.alternative]

/-- An empty second block is not taken for a missing one. -/
theorem Stmt.alternative_legible {other other' : Option (List Stmt)}
    (hOther : ∀ ss, other = some ss → ∀ s ∈ ss, s.Legible)
    (hNamed : other.all Stmt.isNamedAll = true) (hNamed' : other'.all Stmt.isNamedAll = true)
    {rest rest' : List Char}
    (h : Stmt.alternative other ++ rest = Stmt.alternative other' ++ rest') :
    other.map (Stmt.mapLinesAll fun _ => 0) = other'.map (Stmt.mapLinesAll fun _ => 0) ∧
      rest = rest' := by
  cases other with
  | none =>
    -- the parenthesis that closes the statement is not the sign of a second block
    cases other' with
    | none => exact ⟨rfl, (List.cons.inj h).2⟩
    | some ss' => exact absurd (List.cons.inj h).1 (by decide)
  | some ss =>
    cases other' with
    | none => exact absurd (List.cons.inj h).1 (by decide)
    | some ss' =>
      simp only [Stmt.alternative, List.cons_append, List.append_assoc, List.nil_append,
        List.cons.injEq, true_and] at h
      obtain ⟨hSame, hClose⟩ := Stmt.block_legible (hOther ss rfl) hNamed hNamed' h
      exact ⟨congrArg some hSame, (List.cons.inj hClose).2⟩

/-- The names of an `if` are those of its condition and of its blocks. -/
theorem Stmt.isNamed_branch (condition : Expr) (thenBody : List Stmt)
    (elseBody : Option (List Stmt)) (line : Nat) :
    (Stmt.branch condition thenBody elseBody line).isNamed =
      ((condition.isNamed && Stmt.isNamedAll thenBody) && elseBody.all Stmt.isNamedAll) := by
  cases elseBody <;> simp [Stmt.isNamed]

/-- An `if` is legible if its blocks are. -/
theorem Stmt.legible_branch (condition : Expr) {thenBody : List Stmt}
    (hThen : ∀ s ∈ thenBody, s.Legible) {elseBody : Option (List Stmt)}
    (hElse : ∀ ss, elseBody = some ss → ∀ s ∈ ss, s.Legible) (line : Nat) :
    (Stmt.branch condition thenBody elseBody line).Legible := by
  intro other hNamed hNamed' rest rest' _ _ h
  have hTag := Stmt.tag_eq hNamed hNamed' h
  cases other with
  | branch condition' thenBody' elseBody' line' =>
    rw [Stmt.toList_render_branch, Stmt.toList_render_branch] at h
    rw [Stmt.isNamed_branch, Bool.and_eq_true] at hNamed hNamed'
    obtain ⟨hSame, hBlock, hMore⟩ :=
      Stmt.guarded_legible hThen hNamed.1 hNamed'.1 (List.append_cancel_left h)
    obtain ⟨hOther, hRest⟩ := Stmt.alternative_legible hElse hNamed.2 hNamed'.2 hMore
    refine ⟨?_, hRest⟩
    rw [Stmt.unlined, StatementsMoved.branch_mapLines, Stmt.unlined,
      StatementsMoved.branch_mapLines, hBlock, hOther]
    exact congrArg (Stmt.branch · _ _ 0) hSame
  | expr | loop | ret | define => cases hTag

/-- A definition is legible if its body is. -/
theorem Stmt.legible_define (name : String) (params : List String) {body : List Stmt}
    (hBody : ∀ s ∈ body, s.Legible) (line : Nat) :
    (Stmt.define name params body line).Legible := by
  have hText : ∀ (name : String) (params : List String) (body : List Stmt) (line : Nat)
      (rest : List Char), (Stmt.define name params body line).render.toList ++ rest =
        "(<def>".toList ++ (name.toList ++ '(' :: ([' '].intercalate (params.map String.toList) ++
          ')' :: '=' :: '>' :: '(' :: (Stmt.inBlock body ++ ')' :: ')' :: rest))) := by
    simp [Stmt.render, FunctionDef.renderWith, Program.toList_renderBlock,
      String.toList_intercalate]
  intro other hNamed hNamed' rest rest' _ _ h
  have hTag := Stmt.tag_eq hNamed hNamed' h
  cases other with
  | define name' params' body' line' =>
    rw [hText, hText] at h
    simp only [Stmt.isNamed, Bool.and_eq_true, List.all_eq_true] at hNamed hNamed'
    obtain ⟨⟨hName, hParams⟩, hBodyNamed⟩ := hNamed
    obtain ⟨⟨hName', hParams'⟩, hBodyNamed'⟩ := hNamed'
    obtain ⟨rfl, hOpen⟩ := Text.name_legible hName hName' (Text.endsWord_open _)
      (Text.endsWord_open _) (List.append_cancel_left h)
    -- the arrow behind the parameters is not read as a name
    obtain ⟨rfl, hArrow⟩ := Text.names_legible hParams hParams' (List.cons.inj hOpen).2
    simp only [List.cons.injEq, true_and] at hArrow
    obtain ⟨hBlock, hClose⟩ := Stmt.block_legible hBody hBodyNamed hBodyNamed' hArrow
    refine ⟨?_, (List.cons.inj hClose).2⟩
    rw [Stmt.unlined, Stmt.mapLines, Stmt.unlined, Stmt.mapLines, hBlock]
  | expr | branch | loop | ret => cases hTag

mutual

/-- **Every statement is legible.** -/
theorem Stmt.legible : (s : Stmt) → s.Legible
  | .expr value => Stmt.legible_expr value
  | .branch condition thenBody none line =>
    Stmt.legible_branch condition (Stmt.legible_all thenBody) (by rintro _ ⟨⟩) line
  | .branch condition thenBody (some elseBody) line =>
    Stmt.legible_branch condition (Stmt.legible_all thenBody)
      (fun _ hSome => Option.some.inj hSome ▸ Stmt.legible_all elseBody) line
  | .loop condition body line => Stmt.legible_loop condition (Stmt.legible_all body) line
  | .ret result line => Stmt.legible_ret result line
  | .define name params body line =>
    Stmt.legible_define name params (Stmt.legible_all body) line

/-- All statements of a block are legible. -/
theorem Stmt.legible_all : (ss : List Stmt) → ∀ s ∈ ss, s.Legible
  | [] => List.forall_mem_nil _
  | s :: ss => List.forall_mem_cons.mpr ⟨s.legible, Stmt.legible_all ss⟩

end

-- ---------------------------------------------------------------------------
-- Programs
-- ---------------------------------------------------------------------------

mutual

/-- The text of a statement shows no lines. -/
theorem Stmt.render_mapLines (f : Nat → Nat) : (s : Stmt) → (s.mapLines f).render = s.render
  | .expr value => by rw [Stmt.mapLines, Stmt.render, Stmt.render, Expr.render_mapLines]
  | .branch condition thenBody none line => by
    rw [Stmt.mapLines, Stmt.render, Stmt.render, Expr.render_mapLines,
      Stmt.renderAll_mapLines f thenBody]
  | .branch condition thenBody (some elseBody) line => by
    rw [Stmt.mapLines, Stmt.render, Stmt.render, Expr.render_mapLines,
      Stmt.renderAll_mapLines f thenBody, Stmt.renderAll_mapLines f elseBody]
  | .loop condition body line => by
    rw [Stmt.mapLines, Stmt.render, Stmt.render, Expr.render_mapLines,
      Stmt.renderAll_mapLines f body]
  | .ret result line => by rw [Stmt.mapLines, Stmt.render, Stmt.render, Expr.render_mapLines]
  | .define name params body line => by
    rw [Stmt.mapLines, Stmt.render, Stmt.render, Stmt.renderAll_mapLines f body]

/-- The texts of statements show no lines. -/
theorem Stmt.renderAll_mapLines (f : Nat → Nat) : (ss : List Stmt) →
    Stmt.renderAll (Stmt.mapLinesAll f ss) = Stmt.renderAll ss
  | [] => by rw [Stmt.mapLinesAll]
  | s :: ss => by
    rw [Stmt.mapLinesAll, Stmt.renderAll, Stmt.renderAll, Stmt.render_mapLines f s,
      Stmt.renderAll_mapLines f ss]

end

/-- The text of a program shows no lines. -/
theorem Program.render_unlined (program : Program) :
    Program.render (Program.unlined program) = Program.render program := by
  rw [Program.unlined, Program.mapLines, Program.render, Stmt.renderAll_mapLines, Program.render]

/-- **The text of a program shows everything but lines.** Two programs in which
all variables, targets, callees, functions and parameters have names as they are
written in scripts, with any numbers and any texts, have the same rendering just
if they are the same up to the lines of their parts. -/
theorem Program.render_eq_iff_unlined_eq {p q : Program} (hp : p.isNamed = true)
    (hq : q.isNamed = true) : p.render = q.render ↔ p.unlined = q.unlined := by
  constructor
  · intro h
    have hText := congrArg String.toList h
    rw [Program.render, Program.render, Program.toList_renderBlock,
      Program.toList_renderBlock] at hText
    -- the two programs are read as blocks
    exact (Stmt.block_legible (Stmt.legible_all p) hp hq (List.cons.inj hText).2).1
  · intro h
    rw [← Program.render_unlined p, h, Program.render_unlined]

/-- A second block that is empty, behind a condition with a quote and parentheses
in it, and a missing one. -/
theorem Program.render_eq_iff_unlined_eq_empty_else :
    let condition : Expr :=
      ⟨none, .text "a\")", [(.equal, .group ⟨some "x", .number (-5), [], 1⟩)], 1⟩
    let p : Program := [.branch condition [] (some []) 1]
    let q : Program := [.branch condition [] none 1]
    p.isNamed = true ∧ q.isNamed = true ∧ (p.render = q.render ↔ p.unlined = q.unlined) ∧
      p.unlined ≠ q.unlined := by
  intro condition p q
  have hp : p.isNamed = true := by decide +kernel
  have hq : q.isNamed = true := by decide +kernel
  have hApart : p.unlined ≠ q.unlined := by
    simp [p, q, Program.unlined, Program.mapLines, Stmt.mapLinesAll, Stmt.mapLines]
  exact ⟨hp, hq, Program.render_eq_iff_unlined_eq hp hq, hApart⟩

end Scriptlet
