import Scriptlet.Proofs.Agreement
import Scriptlet.Proofs.Lockstep
import Scriptlet.Script

/-!
# Scriptlet — where definitions stand

The grammar lets a function be defined in the outermost block only, so the
body of a parsed function defines nothing when it is run. A program that
consists of definitions with distinct names does nothing but fill its table of
functions.

* `Program.Flat`, `Program.flat_of_parse` — parsed programs define functions at
  the top level only;
* `Stmt.execAll_definitions` — what the definitions at the start of a program
  do.
-/

namespace Scriptlet

-- ---------------------------------------------------------------------------
-- Flat programs
-- ---------------------------------------------------------------------------

/-- The statement that defines the function. -/
def FunctionDef.toStmt (f : FunctionDef) : Stmt :=
  .define f.name f.params f.body f.line

/-- A run of the body defines no function. -/
def FunctionDef.Flat (f : FunctionDef) : Prop :=
  Stmt.definitionsAll f.body = []

/-- The statement is the definition of a flat function, which may only stand
in an outermost block, or it defines nothing. -/
def Stmt.Flat (outermost : Bool) (s : Stmt) : Prop :=
  s.definitions = [] ∨ outermost = true ∧ ∃ f : FunctionDef, f.Flat ∧ s = f.toStmt

/-- Functions are defined at the top level only. -/
def Program.Flat (program : Program) : Prop :=
  ∀ s ∈ program, s.Flat true

theorem Stmt.mem_definitionsAll {f : FunctionDef} {ss : List Stmt} :
    f ∈ Stmt.definitionsAll ss ↔ ∃ s ∈ ss, f ∈ s.definitions := by
  induction ss with
  | nil => simp [Stmt.definitionsAll]
  | cons s ss ih => simp [Stmt.definitionsAll, ih]

/-- A block of statements that define nothing defines nothing. -/
theorem Stmt.definitionsAll_of_flat {ss : List Stmt} (h : ∀ s ∈ ss, s.Flat false) :
    Stmt.definitionsAll ss = [] := by
  refine List.eq_nil_iff_forall_not_mem.mpr fun f hf => ?_
  obtain ⟨s, hs, hDefines⟩ := Stmt.mem_definitionsAll.mp hf
  -- inside another block, a statement of a flat program can only be one that defines nothing
  rcases h s hs with hNone | ⟨hOuter, _⟩
  · rw [hNone] at hDefines
    cases hDefines
  · cases hOuter

/-- The functions that a flat program may define are those that it defines at
the top level. -/
theorem Program.Flat.mem_definitions {program : Program} (h : program.Flat) {f : FunctionDef}
    (hf : f ∈ Stmt.definitionsAll program) : f.toStmt ∈ program ∧ f.Flat := by
  obtain ⟨s, hs, hDefines⟩ := Stmt.mem_definitionsAll.mp hf
  rcases h s hs with hNone | ⟨_, g, hFlat, rfl⟩
  · rw [hNone] at hDefines
    cases hDefines
  · obtain rfl : f = g := List.mem_singleton.mp hDefines
    exact ⟨hs, hFlat⟩

-- ---------------------------------------------------------------------------
-- Parsed programs
-- ---------------------------------------------------------------------------

/-- What a derivation has to do with definitions. -/
def Nonterminal.Flat : (n : Nonterminal) → n.Tree → Prop
  | .alternative, other => ∀ items, other = some items → Stmt.definitionsAll items = []
  | .statement outermost, s => s.Flat outermost
  | .block outermost, items => ∀ s ∈ items, s.Flat outermost
  | .program, items => Program.Flat items
  | _, _ => True

/-- **The grammar has definitions in the outermost block only.** -/
theorem Derivation.flat {n : Nonterminal} {input rest : List Token} {tree : n.Tree}
    (d : Derivation n input tree rest) : n.Flat tree := by
  -- induction on the derivation: only `define` makes a definition, in an outermost block
  induction d with
  | noElse => nofun
  | otherwise body ih =>
    rintro items ⟨⟩
    exact Stmt.definitionsAll_of_flat ih
  -- the bodies of `while` and `if` are blocks that are not outermost
  | loop condition body _ ihBody => exact Or.inl (Stmt.definitionsAll_of_flat ihBody)
  | @branch _ _ _ other _ _ _ _ _ _ _ _ condition body alternative _ ihBody ihElse =>
    have hBody := Stmt.definitionsAll_of_flat ihBody
    cases other with
    | none => exact Or.inl hBody
    | some items =>
      refine Or.inl ?_
      rw [Stmt.definitions, hBody, ihElse items rfl, List.append_nil]
  | ret result _ => exact Or.inl rfl
  | @define x xs items l _ _ _ _ _ _ _ params body _ ihBody =>
    exact Or.inr ⟨rfl, ⟨x, xs, items, l⟩, Stmt.definitionsAll_of_flat ihBody, rfl⟩
  | plain value _ => exact Or.inl rfl
  | blockEnd => exact List.forall_mem_nil _
  | item first more ihFirst ihMore => exact List.forall_mem_cons.mpr ⟨ihFirst, ihMore⟩
  | program body ih => exact ih
  | _ => exact trivial

/-- **A parsed program is flat.** -/
theorem Program.flat_of_parse {source : String} {program : Program} {scanner : Scanner}
    (h : Program.parse source = .ok program scanner) : program.Flat := by
  -- the tokens that are ahead stop before the end of the input
  have hTokens : ∀ token ∈ (Scanner.ofSource source).stream.tokens, token.isEof = false :=
    Scanner.ahead_isEof 0 (Text.lines source.toList)
  have hOutcome : outcome (Scanner.ofSource source).parse = .ok program := congrArg outcome h
  rcases agree_parse rfl hTokens with ⟨ast, _, hParse, _, _, ⟨d⟩⟩ | ⟨stop, hParse, _⟩
  · rw [hOutcome] at hParse
    cases hParse
    exact d.flat
  · rw [hOutcome] at hParse
    cases hParse

-- ---------------------------------------------------------------------------
-- Running definitions
-- ---------------------------------------------------------------------------

/-- The functions under their names. -/
def FunctionDef.table (fs : List FunctionDef) : Table FunctionDef :=
  ⟨fs.map fun f => (f.name, f)⟩

theorem FunctionDef.names_table (fs : List FunctionDef) :
    (FunctionDef.table fs).names = fs.map (·.name) :=
  List.map_map

/-- An entry of a new name is added after the others. -/
theorem Table.insertEntry_of_lookup {α : Type} {name : String} {entries : List (String × α)}
    (h : entries.lookup name = none) (entry : α) :
    Table.insertEntry name entry entries = entries ++ [(name, entry)] := by
  induction entries with
  | nil => rfl
  | cons head rest ih =>
    obtain ⟨other, old⟩ := head
    -- the names met on the way differ from the new one, so none of their entries is replaced
    cases hName : name == other with
    | true => simp [List.lookup_cons, hName] at h
    | false =>
      rw [List.lookup_cons, hName] at h
      rw [Table.insertEntry, hName, if_neg (by decide), ih h, List.cons_append]

theorem Table.find?_eq_none_iff {α : Type} {table : Table α} {name : String} :
    table.find? name = none ↔ name ∉ table.names := by
  simp only [Table.find?, Table.names, List.lookup_eq_none_iff, List.mem_map]
  grind

/-- A new name goes last. -/
theorem Table.insert_new {α : Type} {table : Table α} {name : String}
    (h : table.find? name = none) (entry : α) :
    table.insert name entry = ⟨table.entries ++ [(name, entry)]⟩ := by
  rw [Table.insert, Table.insertEntry_of_lookup h]

variable {σ : Type}

/-- The state with other functions of the program's own. -/
def RunState.withFunctions (state : RunState σ) (functions : Table FunctionDef) : RunState σ :=
  { state with chain := { state.chain with main := { state.chain.main with functions } } }

/-- A definition of a new name adds the function after the others. -/
theorem Eval.define_new {f : FunctionDef} {state : RunState σ}
    (h : state.chain.main.functions.find? f.name = none) :
    Eval.define f state = .ok () (state.withFunctions
      ⟨state.chain.main.functions.entries ++ [(f.name, f)]⟩) := by
  -- no function of that name, so the definition is not refused
  have hContains : state.chain.main.functions.contains f.name = false := by
    rw [Table.contains, h, Option.isSome_none]
  rw [← Table.insert_new h f]
  unfold Eval.define Frame.defineFunction
  rw [hContains]
  rfl

/-- **Definitions at the start of a block add their functions** and do nothing
else, if their names are new and distinct. -/
theorem Stmt.execAll_definitions (call : Caller σ) (fuel : Nat) (last : Value)
    (rest : List Stmt) (fs : List FunctionDef) (state : RunState σ)
    (hDistinct : (state.chain.main.functions.names ++ fs.map (·.name)).Nodup) :
    Stmt.execAll call fuel last (fs.map FunctionDef.toStmt ++ rest) state =
      Stmt.execAll call fuel last rest (state.withFunctions
        ⟨state.chain.main.functions.entries ++ (FunctionDef.table fs).entries⟩) := by
  -- induction on the definitions: each one finds the table that the one before it leaves
  induction fs generalizing state with
  | nil =>
    show _ = Stmt.execAll call fuel last rest (state.withFunctions ⟨_ ++ []⟩)
    rw [List.append_nil]
    rfl
  | cons f fs ih =>
    have hNew : state.chain.main.functions.find? f.name = none := by
      refine Table.find?_eq_none_iff.mpr fun hMem => ?_
      exact (List.nodup_append.mp hDistinct).2.2 _ hMem f.name List.mem_cons_self rfl
    have hDefine : f.toStmt.exec call fuel state = .ok Flow.next (state.withFunctions
        ⟨state.chain.main.functions.entries ++ [(f.name, f)]⟩) := by
      rw [FunctionDef.toStmt, Stmt.exec, Setting.around_idle]
      exact bind_of_ok (Eval.define_new hNew)
    rw [List.map_cons, List.cons_append, Stmt.execAll, bind_of_ok hDefine]
    -- the names that are still to come are new in the longer table as well
    have hLater : (state.withFunctions
        ⟨state.chain.main.functions.entries ++ [(f.name, f)]⟩).chain.main.functions.names ++
          fs.map (·.name) = state.chain.main.functions.names ++ (f :: fs).map (·.name) := by
      simp [RunState.withFunctions, Table.names]
    have hRest := ih (state.withFunctions
      ⟨state.chain.main.functions.entries ++ [(f.name, f)]⟩) (hLater ▸ hDistinct)
    refine hRest.trans ?_
    simp [RunState.withFunctions, FunctionDef.table]

/-- A program that starts with definitions runs as its rest does with their
table as its own. -/
theorem Program.eval_definitions_append (context : Context σ) (fuel : Nat) {fs : List FunctionDef}
    (hDistinct : (fs.map (·.name)).Nodup) (program : Program) (world : World σ) :
    Program.eval (fs.map FunctionDef.toStmt ++ program) context fuel (.start world) =
      program.eval context fuel ((RunState.start world).withFunctions (FunctionDef.table fs)) := by
  have hRun := Stmt.execAll_definitions (context.call fuel) fuel .zero program fs (.start world)
    hDistinct
  rw [Program.eval_eq_execAll, Program.eval_eq_execAll]
  show EStateM.bind _ _ _ = EStateM.bind _ _ _
  unfold EStateM.bind
  rw [hRun]
  rfl

/-- A program of definitions leaves their table behind. -/
theorem Program.eval_definitions (context : Context σ) (fuel : Nat) {fs : List FunctionDef}
    (hDistinct : (fs.map (·.name)).Nodup) (world : World σ) :
    Program.eval (fs.map FunctionDef.toStmt) context fuel (.start world) =
      .ok .zero ((RunState.start world).withFunctions (FunctionDef.table fs)) := by
  have hRun := Program.eval_definitions_append context fuel hDistinct [] world
  rw [List.append_nil] at hRun
  rw [hRun, Program.eval_eq_execAll, Stmt.execAll]
  rfl

end Scriptlet
