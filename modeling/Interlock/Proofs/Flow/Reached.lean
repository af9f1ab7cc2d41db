import Interlock.Proofs.Flow.Definitions
import Interlock.Proofs.Syntax.Build

/-!
# The definitions that a walk comes to

In a file whose statements are nested as the grammar has it, a walk enters every definition once, in
the order of the text (`enters_walk`). Each kind of statement hands the walk on to its blocks
(`Flow.Reaches`), with one exception: of the statements of a class body the walk follows definitions
only, so what is defined in an `if` or a `try` there is passed over (`enters_walk_overlooks`).
-/

namespace Interlock

open Syntax

/-! ## Reached definitions -/

namespace Enclosing

variable {e : Enclosing} {n : Node} {inner : Routine}

/-- The routines of the definitions in a tree that a walk comes to. -/
def reachedIn (e : Enclosing) (n : Node) : List Routine :=
  ((definitionsIn e n).filter Definition.reached).map Definition.routine

/-- The same for a list of trees. -/
def reachedAmong (e : Enclosing) (nodes : List Node) : List Routine := nodes.flatMap e.reachedIn

theorem map_filter_reached (e : Enclosing) (nodes : List Node) :
    ((nodes.flatMap (definitionsIn e)).filter Definition.reached).map Definition.routine =
      e.reachedAmong nodes := by
  rw [List.filter_flatMap, List.map_flatMap]
  rfl

/-- A definition that is reached comes first, and what is in it belongs to its routine. -/
theorem reachedIn_of_some (h : e.routine.made? n = some inner)
    (hreached : (e.into n.kind).reached = true) :
    e.reachedIn n = inner :: Enclosing.reachedAmong ⟨inner, true⟩ n.children := by
  rw [reachedIn, definitionsIn_of_some h, hreached, List.filter_cons_of_pos rfl, List.map_cons,
    map_filter_reached]

theorem reachedIn_of_none (h : e.routine.made? n = none) :
    e.reachedIn n = (e.into n.kind).reachedAmong n.children := by
  rw [reachedIn, definitionsIn_of_none h, map_filter_reached]

theorem reachedAmong_eq_nil {nodes : List Node} (h : ∀ c ∈ nodes, e.reachedIn c = []) :
    e.reachedAmong nodes = [] :=
  List.flatMap_eq_nil_iff.2 h

/-- Definitions and blocks do not end the walk of a class body. -/
theorem into_of_level (h : n.kind.level = .definition ∨ n.kind.level = .decorated ∨
    n.kind.level = .block) : e.into n.kind = e :=
  if_neg fun hn => hn.2 h

theorem into_of_ne (h : e.routine.kind ≠ .classBody) (kind : Kind) : e.into kind = e :=
  if_neg fun hn => h hn.1

theorem reached_into (h : e.reached = false) (kind : Kind) : (e.into kind).reached = false := by
  unfold into
  split
  · rfl
  · exact h

/-- What is not reached from outside is not reached from within. -/
theorem reachedIn_of_unreached (h : e.reached = false) (n : Node) : e.reachedIn n = [] := by
  induction n using Node.ofChildren generalizing e with
  | h n ih =>
    cases hmade : e.routine.made? n with
    | some inner =>
      have hreached := reached_into h n.kind
      rw [reachedIn, definitionsIn_of_some hmade, hreached, List.filter_cons_of_neg (by simp),
        map_filter_reached]
      exact reachedAmong_eq_nil fun c hc => ih c hc rfl
    | none =>
      rw [reachedIn_of_none hmade]
      exact reachedAmong_eq_nil fun c hc => ih c hc (reached_into h n.kind)

/-- No definition stands in an expression. -/
theorem reachedIn_of_plain (hn : n.Everywhere Node.Nested) (h : n.kind.level = .plain) :
    e.reachedIn n = [] := by
  rw [reachedIn, definitionsIn_eq_nil (makesRoutine_of_plain hn h)]
  rfl

end Enclosing

/-! ## What the walk reaches -/

/-- A node of a file without errors. -/
def Syntax.Node.Sound (n : Node) : Prop := n.flaw = none ∧ n.Nested

theorem Syntax.Node.Sound.isNamed {n : Node} (h : n.Sound) : n.isNamed = true := by
  simp [Node.isNamed, h.1]

theorem Syntax.Node.Everywhere.nested {n : Node} (h : n.Everywhere Node.Sound) :
    n.Everywhere Node.Nested :=
  fun m hm => (h m hm).2

/-- A scope in which the walk of a routine goes on. -/
structure Scope.Meets (s : Scope) (e : Enclosing) : Prop where
  routine : e.routine = s.routine
  owner : s.routine.owner = s.owner.map ClassFacts.name
  reached : e.reached = true

namespace Flow

variable {s : Scope} {e : Enclosing} {n : Node} {decorators : List String}

/-- The walk comes to all definitions of a tree that can be reached, whatever the tree stands for:
a statement, a part of one, a member of a class or the body of a class. -/
structure Reaches (n : Node) : Prop where
  stmt : ∀ {s : Scope} {e : Enclosing} (decorators : List String), s.Meets e →
    s.routine.kind ≠ .classBody → n.kind.level ≠ .block → n.kind.level ≠ .file →
    enteredAll (ofStmt s decorators n) = e.reachedIn n
  arm : ∀ {s : Scope} {e : Enclosing}, s.Meets e → s.routine.kind ≠ .classBody →
    n.kind.level ∈ [Level.block, .clause, .plain] → enteredArms (armsOf s [n]) = e.reachedIn n
  member : ∀ {s : Scope} {e : Enclosing} (decorators : List String), s.Meets e →
    s.routine.kind = .classBody → n.kind.level ≠ .block →
    enteredAll (ofMember s decorators n) = e.reachedIn n
  members : ∀ {s : Scope} {e : Enclosing}, s.Meets e → s.routine.kind = .classBody →
    n.kind.level = .block → enteredAll (ofMembers s n.children) = e.reachedIn n

section Lists

variable {nodes : List Node}

/-- The statements of a block are walked one after another. -/
theorem enteredAll_ofStmts (hs : s.Meets e) (hkind : s.routine.kind ≠ .classBody)
    (h : ∀ c ∈ nodes, Reaches c ∧ c.isNamed = true ∧ c.kind.level ≠ .block ∧
      c.kind.level ≠ .file) :
    enteredAll (ofStmts s nodes) = e.reachedAmong nodes := by
  induction nodes with
  | nil => rfl
  | cons c rest ih =>
    obtain ⟨⟨hc, hnamed, hblock, hfile⟩, hrest⟩ := List.forall_mem_cons.1 h
    rw [ofStmts, if_pos hnamed, enteredAll_append, hc.stmt [] hs hkind hblock hfile, ih hrest]
    rfl

theorem enteredAll_ofMembers (hs : s.Meets e) (hkind : s.routine.kind = .classBody)
    (h : ∀ c ∈ nodes, Reaches c ∧ c.isNamed = true ∧ c.kind.level ≠ .block) :
    enteredAll (ofMembers s nodes) = e.reachedAmong nodes := by
  induction nodes with
  | nil => rfl
  | cons c rest ih =>
    obtain ⟨⟨hc, hnamed, hblock⟩, hrest⟩ := List.forall_mem_cons.1 h
    rw [ofMembers, if_pos hnamed, enteredAll_append, hc.member [] hs hkind hblock, ih hrest]
    rfl

theorem enteredArms_armsOf (hs : s.Meets e) (hkind : s.routine.kind ≠ .classBody)
    (h : ∀ c ∈ nodes, Reaches c ∧ c.kind.level ∈ [Level.block, .clause, .plain]) :
    enteredArms (armsOf s nodes) = e.reachedAmong nodes := by
  induction nodes with
  | nil => rfl
  | cons c rest ih =>
    obtain ⟨⟨hc, hlevel⟩, hrest⟩ := List.forall_mem_cons.1 h
    rw [armsOf_cons, enteredArms_append, hc.arm hs hkind hlevel, ih hrest]
    rfl

end Lists

section Cases

theorem reachedIn_of_plain (hn : n.Everywhere Node.Sound) (h : n.kind.level = .plain) :
    e.reachedIn n = [] :=
  Enclosing.reachedIn_of_plain hn.nested h

theorem mem_of_child? {f : Field} {c : Node} (h : n.child? f = some c) :
    c ∈ n.children ∧ c.field = some f :=
  ⟨List.mem_of_find?_eq_some h, by simpa using List.find?_some h⟩

/-- Of the parts of a statement with one block, only the block holds definitions. -/
theorem reachedAmong_of_body (hn : n.Everywhere Node.Sound)
    (hlevel : n.kind.level = .definition ∨ n.kind.level = .managed) :
    e.reachedAmong n.children = ((n.child? .body).map e.reachedIn).getD [] := by
  refine (hn.here.2.body hlevel).flatMap_eq fun c hc htest => ?_
  have hbelow := hn.here.2.level c hc
  have hblock : c.kind.level ≠ .block := fun e => by
    simp [Kind.eq_of_level_block e] at htest
  refine reachedIn_of_plain (hn.child hc) ?_
  rcases hlevel with h | h <;> rw [h] at hbelow <;> simpa [Level.below, hblock] using hbelow

/-- The node in the role of the body is a block. -/
theorem level_of_body (hn : n.Everywhere Node.Sound)
    (hlevel : n.kind.level = .definition ∨ n.kind.level = .managed) {b : Node}
    (hb : n.child? .body = some b) : b.kind.level = .block := by
  obtain ⟨hmem, hfield⟩ := mem_of_child? hb
  have hblock : b.kind = .block := by
    simpa using ((hn.here.2.body hlevel).field b hmem).2 hfield
  rw [hblock]
  rfl

/-- The block of a statement is a part like any other. -/
theorem enteredArms_block {b : Node} (hb : b.kind.level = .block) (hnamed : b.isNamed = true) :
    enteredArms (armsOf s [b]) = enteredAll (ofStmts s b.children) := by
  obtain ⟨kind, field, text, row, flaw, children⟩ := b
  obtain rfl : kind = .block := Kind.eq_of_level_block hb
  simp [armsOf, hnamed, enteredArms]

theorem enteredAll_ofBlockField (hn : n.Everywhere Node.Sound) (ih : ∀ c ∈ n.children, Reaches c)
    (hlevel : n.kind.level = .definition ∨ n.kind.level = .managed) (hs : s.Meets e)
    (hkind : s.routine.kind ≠ .classBody) :
    enteredAll (ofBlockField s .body n.children) = e.reachedAmong n.children := by
  rw [ofBlockField_eq, reachedAmong_of_body hn hlevel, Node.child?]
  cases hb : Node.withField? .body n.children with
  | none => rfl
  | some b =>
    have hmem := (mem_of_child? hb).1
    have hblock := level_of_body hn hlevel hb
    have harm := (ih b hmem).arm hs hkind (by simp [hblock])
    rw [enteredArms_block hblock (hn.child hmem).here.isNamed] at harm
    simpa using harm

/-- The walk goes on in the scope of a function. -/
theorem meets_ofFunction (hs : s.Meets e) {kind : RoutineKind} {name : String}
    (hkind : kind = (s.routine.ofFunction name).kind) (decorators : List String) (f : Node) :
    (s.ofFunction kind decorators f name).Meets ⟨s.routine.ofFunction name, true⟩ := by
  have hroutine : (s.ofFunction kind decorators f name).routine = s.routine.ofFunction name := by
    subst hkind
    simp only [Scope.ofFunction, Routine.ofFunction, hs.owner]
    cases s.routine.kind <;> simp
  exact ⟨hroutine.symm, by rw [hroutine]; exact hs.owner, rfl⟩

theorem meets_ofClass (hs : s.Meets e) (name : String) (body : Node) :
    (s.ofClass name body).Meets ⟨s.routine.ofClass name, true⟩ := by
  have hroutine : (s.ofClass name body).routine = s.routine.ofClass name := by
    simp only [Scope.ofClass, Routine.ofClass, hs.owner]
    cases s.owner <;> rfl
  refine ⟨hroutine.symm, ?_, rfl⟩
  rw [hroutine]
  simp only [Scope.ofClass, Routine.ofClass, hs.owner]
  cases s.owner <;> rfl

/-- A function is entered, and then what is defined in it. -/
theorem enteredAll_ofFunction (hn : n.Everywhere Node.Sound) (ih : ∀ c ∈ n.children, Reaches c)
    (hfunction : n.kind = .functionDefinition) (hs : s.Meets e) (kind : RoutineKind)
    (hkind : ∀ name, kind = (s.routine.ofFunction name).kind) (decorators : List String) :
    enteredAll (ofFunction s kind decorators n fun inner => ofBlockField inner .body n.children) =
      e.reachedIn n := by
  have hlevel : n.kind.level = .definition := by rw [hfunction]; rfl
  obtain ⟨name, hname⟩ := Option.isSome_iff_exists.1 (hn.here.2.name hlevel)
  have hmade : e.routine.made? n = some (e.routine.ofFunction name.text) := by
    simp [Routine.made?, hfunction, hname]
  have hinner := meets_ofFunction hs (hkind name.text) decorators n
  have hne : (s.ofFunction kind decorators n name.text).routine.kind ≠ .classBody := by
    rw [← hinner.routine, Routine.ofFunction]
    cases s.routine.kind <;> simp
  rw [Enclosing.reachedIn_of_some hmade (by rw [Enclosing.into_of_level (.inl hlevel), hs.reached]),
    ofFunction, hname, hs.routine]
  simp only [enteredAll_singleton, entered, enteredAll_underLocks]
  rw [enteredAll_ofBlockField hn ih (.inl hlevel) hinner hne, ← hinner.routine]

theorem ofClassBody_eq (s : Scope) (name? : Option Node) (children : List Node) :
    ofClassBody s name? children =
      match name?, Node.withField? .body children with
      | some name, some body =>
        [routine (s.ofClass name.text body).routine
          (ofMembers (s.ofClass name.text body) body.children)]
      | _, _ => [] := by
  induction children with
  | nil => cases name? <;> rfl
  | cons c rest ih =>
    obtain ⟨kind, field, text, row, flaw, members⟩ := c
    by_cases h : field = some .body
    · cases name? <;> simp [ofClassBody, Node.withField?, h]
    · cases name? <;> simp [ofClassBody, Node.withField?, h, ih]

/-- Of the parts of a decorated definition, only what is decorated holds definitions. -/
theorem reachedIn_of_decorated (hn : n.Everywhere Node.Sound) (hlevel : n.kind.level = .decorated) :
    e.reachedIn n = ((n.child? .definition).map e.reachedIn).getD [] := by
  rw [Enclosing.reachedIn_of_none (Routine.made?_eq_none (by rw [hlevel]; decide)),
    Enclosing.into_of_level (.inr (.inl hlevel))]
  refine (hn.here.2.definition hlevel).flatMap_eq fun c hc htest => ?_
  have hbelow := hn.here.2.level c hc
  have hne : c.kind.level ≠ .definition := by simpa using htest
  rw [hlevel] at hbelow
  exact reachedIn_of_plain (hn.child hc) (by simpa [Level.below, hne] using hbelow)

theorem level_of_definition (hn : n.Everywhere Node.Sound) (hlevel : n.kind.level = .decorated)
    {d : Node} (hd : n.child? .definition = some d) : d.kind.level = .definition := by
  obtain ⟨hmem, hfield⟩ := mem_of_child? hd
  simpa using ((hn.here.2.definition hlevel).field d hmem).2 hfield

/-- A class is entered, and then what is defined in it. -/
theorem enteredAll_ofClassBody (hn : n.Everywhere Node.Sound) (ih : ∀ c ∈ n.children, Reaches c)
    (hclass : n.kind = .classDefinition) (hs : s.Meets e) :
    enteredAll (ofClassBody s (n.child? .name) n.children) = e.reachedIn n := by
  have hlevel : n.kind.level = .definition := by rw [hclass]; rfl
  have hinto : e.into n.kind = e := Enclosing.into_of_level (.inl hlevel)
  obtain ⟨name, hname⟩ := Option.isSome_iff_exists.1 (hn.here.2.name hlevel)
  rw [ofClassBody_eq, hname]
  cases hbody : n.child? .body with
  | none =>
    have hmade : e.routine.made? n = none := by simp [Routine.made?, hclass, hname, hbody]
    rw [Enclosing.reachedIn_of_none hmade, reachedAmong_of_body hn (.inl hlevel), hbody]
    rw [Node.child?] at hbody
    rw [hbody]
    rfl
  | some body =>
    have hmade : e.routine.made? n = some (e.routine.ofClass name.text) := by
      simp [Routine.made?, hclass, hname, hbody]
    have hinner := meets_ofClass hs name.text body
    have hmembers := (ih body (mem_of_child? hbody).1).members hinner rfl
      (level_of_body hn (.inl hlevel) hbody)
    rw [Enclosing.reachedIn_of_some hmade (by rw [hinto, hs.reached]),
      reachedAmong_of_body hn (.inl hlevel), hbody, hs.routine]
    rw [Node.child?] at hbody
    rw [hbody]
    simp only [enteredAll_singleton, entered, hmembers, ← hinner.routine]
    rfl

/-! ### Branching statements -/

/-- The parts of a statement or clause that holds no statement directly. -/
theorem enteredArms_children (hn : n.Everywhere Node.Sound) (ih : ∀ c ∈ n.children, Reaches c)
    (hlevel : n.kind.level ∈ [Level.compound, .clause, .plain]) (hs : s.Meets e)
    (hkind : s.routine.kind ≠ .classBody) :
    enteredArms (armsOf s n.children) = e.reachedAmong n.children := by
  refine enteredArms_armsOf hs hkind fun c hc => ⟨ih c hc, ?_⟩
  have hbelow := hn.here.2.level c hc
  simp only [List.mem_cons, List.not_mem_nil, or_false] at hlevel
  rcases hlevel with h | h | h <;> rw [h] at hbelow <;>
    simp only [Level.below, List.mem_cons, List.not_mem_nil, or_false] at hbelow ⊢ <;> tauto

/-- Outside the body of a class every statement is looked into. -/
theorem reachedIn_of_ne_definition (hs : s.Meets e) (hkind : s.routine.kind ≠ .classBody)
    (hlevel : n.kind.level ≠ .definition) : e.reachedIn n = e.reachedAmong n.children := by
  rw [Enclosing.reachedIn_of_none (Routine.made?_eq_none hlevel),
    Enclosing.into_of_ne (by rw [hs.routine]; exact hkind)]

theorem armsOf_of_isClause {c : Node} (hclause : c.kind.isClause = true)
    (hnamed : c.isNamed = true) : armsOf s [c] = armsOf s c.children := by
  obtain ⟨kind, field, text, row, flaw, children⟩ := c
  have hclause : kind.isClause = true := hclause
  have hblock : kind ≠ .block := fun e => absurd hclause (by rw [e]; decide)
  simp [armsOf, hnamed, hblock, hclause]

/-- An expression enters nothing, be it a part of a statement or the cover of further ones. -/
theorem enteredArms_of_plain (hn : n.Everywhere Node.Sound) (h : n.kind.level = .plain) :
    enteredArms (armsOf s n.children) = [] ∧ enteredArms (armsOf s [n]) = [] := by
  induction n using Node.ofChildren with
  | h n ih =>
    have hbelow (c : Node) (hc : c ∈ n.children) : c.kind.level = .plain := by
      have hlevel := hn.here.2.level c hc
      rw [h] at hlevel
      simpa [Level.below] using hlevel
    have hchildren (nodes : List Node) (hnodes : nodes ⊆ n.children) :
        enteredArms (armsOf s nodes) = [] := by
      induction nodes with
      | nil => rfl
      | cons c rest ihrest =>
        obtain ⟨hc, hrest⟩ := List.cons_subset.1 hnodes
        rw [armsOf_cons, enteredArms_append, (ih c hc (hn.child hc) (hbelow c hc)).2, ihrest hrest]
        rfl
    refine ⟨hchildren _ (List.Subset.refl _), ?_⟩
    by_cases hclause : n.kind.isClause = true
    · rw [armsOf_of_isClause hclause hn.here.isNamed]
      exact hchildren _ (List.Subset.refl _)
    · have hnamed := hn.here.isNamed
      obtain ⟨kind, field, text, row, flaw, children⟩ := n
      have hblock : kind ≠ .block := by
        rintro rfl
        cases h
      have hclause : ¬kind.isClause = true := hclause
      rw [armsOf, armsOf, List.append_nil, if_neg (by simp [hnamed]), if_neg hblock, if_neg hclause]
      split
      · rfl
      · exact enteredArms_probes _

/-- Of the parts of a `finally` clause only the blocks enter something. -/
theorem enteredAll_ofBlocks {nodes : List Node}
    (h : ∀ c ∈ nodes, c.Everywhere Node.Sound ∧ c.kind.level ∈ [Level.block, .plain]) :
    enteredAll (ofBlocks s nodes) = enteredArms (armsOf s nodes) := by
  induction nodes with
  | nil => rfl
  | cons c rest ih =>
    obtain ⟨⟨hsound, hlevel⟩, hrest⟩ := List.forall_mem_cons.1 h
    have hnamed := hsound.here.isNamed
    have hhere : enteredAll (if c.kind = .block ∧ c.isNamed then ofStmts s c.children else []) =
        enteredArms (armsOf s [c]) := by
      by_cases hblock : c.kind = .block
      · rw [if_pos ⟨hblock, hnamed⟩, enteredArms_block (by rw [hblock]; rfl) hnamed]
      · have hne : c.kind.level ≠ .block := fun e => hblock (Kind.eq_of_level_block e)
        have hplain : c.kind.level = .plain := by simpa [hne] using hlevel
        rw [if_neg fun e => hblock e.1, (enteredArms_of_plain hsound hplain).2]
        rfl
    rw [armsOf_cons, enteredArms_append, ← hhere, ← ih hrest, ← enteredAll_append]
    obtain ⟨kind, field, text, row, flaw, children⟩ := c
    rfl

/-- A part of a `try` statement other than its `finally`. -/
theorem enteredParts_cons {c : Node} (hsound : c.Everywhere Node.Sound) (hc : Reaches c)
    (hs : s.Meets e) (hkind : s.routine.kind ≠ .classBody)
    (hlevel : c.kind.level ∈ [Level.block, .clause, .plain]) (hfinal : c.kind ≠ .finallyClause)
    (rest : List Node) :
    enteredParts (partsOf s (c :: rest)) = e.reachedIn c ++ enteredParts (partsOf s rest) := by
  have hnamed := hsound.here.isNamed
  have harm := hc.arm hs hkind hlevel
  by_cases hblock : c.kind = .block
  · rw [enteredArms_block (by rw [hblock]; rfl) hnamed] at harm
    rw [partsOf_cons_body rest hblock hnamed, enteredParts, harm]
  · have harms : enteredArms (armsOf s c.children) = e.reachedIn c := by
      by_cases hplain : c.kind.level = .plain
      · rw [(enteredArms_of_plain hsound hplain).1, reachedIn_of_plain hsound hplain]
      · have hclause : c.kind.level = .clause := by
          have hne : c.kind.level ≠ .block := fun e => hblock (Kind.eq_of_level_block e)
          simpa [hne, hplain] using hlevel
        rw [← harm, armsOf_of_isClause (Kind.isClause_of_level hclause) hnamed]
    by_cases hcomment : c.kind = .comment
    · rw [reachedIn_of_plain hsound (by rw [hcomment]; rfl), List.nil_append]
      obtain ⟨kind, field, text, row, flaw, children⟩ := c
      obtain rfl : kind = .comment := hcomment
      simp [partsOf_cons]
    · by_cases helse : c.kind = .elseClause
      · rw [partsOf_cons_orElse rest helse hnamed, enteredParts, harms]
      · have hhandler : c.isHandler = true := by
          simp [Node.isHandler, hnamed, hblock, helse, hfinal, hcomment]
        rw [partsOf_cons_handler rest hhandler, enteredParts, harms]

theorem enteredParts_of_plain {nodes : List Node}
    (h : ∀ c ∈ nodes, Reaches c ∧ c.Everywhere Node.Sound ∧ c.kind.level = .plain) (hs : s.Meets e)
    (hkind : s.routine.kind ≠ .classBody) : enteredParts (partsOf s nodes) = [] := by
  induction nodes with
  | nil => rfl
  | cons c rest ih =>
    obtain ⟨⟨hc, hsound, hplain⟩, hrest⟩ := List.forall_mem_cons.1 h
    have hfinal : c.kind ≠ .finallyClause := fun e => by simp [e, Kind.level] at hplain
    rw [enteredParts_cons hsound hc hs hkind (by simp [hplain]) hfinal, ih hrest,
      reachedIn_of_plain hsound hplain]
    rfl

theorem finalOf?_eq_none {nodes : List Node} (h : ∀ c ∈ nodes, c.kind ≠ .finallyClause) :
    finalOf? s nodes = none := by
  rw [finalOf?_eq]
  have hnone : Node.ofKind .finallyClause nodes = [] :=
    List.filter_eq_nil_iff.2 fun c hc => by simp [h c hc]
  rw [hnone]
  rfl

/-- The `finally` of a `try` statement comes last. -/
theorem entered_attempt {nodes : List Node} (hs : s.Meets e) (hkind : s.routine.kind ≠ .classBody)
    (h : ∀ c ∈ nodes, Reaches c ∧ c.Everywhere Node.Sound ∧
      c.kind.level ∈ [Level.block, .clause, .plain])
    (hlast : finallyLast nodes = true) :
    enteredParts (partsOf s nodes) ++ enteredAll ((finalOf? s nodes).getD []) =
      e.reachedAmong nodes := by
  induction nodes with
  | nil => rfl
  | cons c rest ih =>
    obtain ⟨⟨hc, hsound, hlevel⟩, hrest⟩ := List.forall_mem_cons.1 h
    have hnamed := hsound.here.isNamed
    have hcons : e.reachedAmong (c :: rest) = e.reachedIn c ++ e.reachedAmong rest := rfl
    rw [hcons]
    by_cases hfinal : c.kind = .finallyClause
    · -- nothing but expressions and comments can follow
      have hplain : ∀ d ∈ rest, d.kind.level = .plain := by
        simpa [finallyLast, hfinal] using hlast
      have hparts : enteredParts (partsOf s rest) = [] :=
        enteredParts_of_plain (fun d hd => ⟨(hrest d hd).1, (hrest d hd).2.1, hplain d hd⟩) hs hkind
      have hnone : finalOf? s rest = none := finalOf?_eq_none fun d hd e => by
        have := hplain d hd
        simp [e, Kind.level] at this
      have hrest : e.reachedAmong rest = [] := Enclosing.reachedAmong_eq_nil fun d hd =>
        reachedIn_of_plain (hrest d hd).2.1 (hplain d hd)
      have hclause : c.kind.level = .clause := by rw [hfinal]; rfl
      have hblocks : enteredAll (ofBlocks s c.children) = e.reachedIn c := by
        have hbelow := hsound.here.2.level
        rw [hclause] at hbelow
        rw [enteredAll_ofBlocks fun d hd => ⟨hsound.child hd, hbelow d hd⟩,
          ← armsOf_of_isClause (Kind.isClause_of_level hclause) hnamed, hc.arm hs hkind hlevel]
      obtain ⟨kind, field, text, row, flaw, children⟩ := c
      obtain rfl : kind = .finallyClause := hfinal
      rw [partsOf_cons, finalOf?, hnone, hrest]
      simp only [true_or, or_true, if_true, List.nil_append, hnamed, and_self, Option.getD_some]
      rw [hparts, hblocks, List.append_nil, List.nil_append]
    · have hlast : finallyLast rest = true := by simpa [finallyLast, hfinal] using hlast
      have hskip : finalOf? s (c :: rest) = finalOf? s rest := by
        rw [finalOf?_eq, finalOf?_eq, Node.ofKind_cons, if_neg fun e => hfinal e.1]
      rw [enteredParts_cons hsound hc hs hkind hlevel hfinal, hskip, List.append_assoc,
        ih hrest hlast]

/-! ### All statements -/

theorem enteredAll_of_plain (hn : n.Everywhere Node.Sound) (h : n.kind.level = .plain) :
    enteredAll (ofStmt s decorators n) = [] := by
  have harms := (enteredArms_of_plain (s := s) hn h).1
  obtain ⟨kind, field, text, row, flaw, children⟩ := n
  unfold ofStmt
  split
  · exact enteredAll_exprs s _
  · exact enteredAll_probes _
  · cases h
  · cases h
  · cases h
  · cases h
  · cases h
  · split
    · rfl
    · split
      · exact enteredAll_probes _
      · rw [enteredAll_singleton, entered]
        exact harms

/-- A statement other than those with a rule of their own enters what its blocks enter. -/
theorem ofStmt_of_level (h : n.kind.level = .compound ∨ n.kind.level = .clause)
    (htry : n.kind ≠ .tryStatement) :
    ofStmt s decorators n = [branch (armsOf s n.children) (isExhaustive n)] := by
  refine ofStmt_of_isBranching ?_
  unfold Node.isBranching
  cases hkind : n.kind with
  | other name => rfl
  | tryStatement => exact absurd hkind htry
  | ifStatement => rfl
  | elseClause => rfl
  | finallyClause => rfl
  | _ => simp [hkind, Kind.level] at h

/-- A statement is walked like its parts, by one lemma for each level of statements. -/
theorem reaches_stmt (hn : n.Everywhere Node.Sound) (ih : ∀ c ∈ n.children, Reaches c)
    (hs : s.Meets e) (hkind : s.routine.kind ≠ .classBody) (hblock : n.kind.level ≠ .block)
    (hfile : n.kind.level ≠ .file) : enteredAll (ofStmt s decorators n) = e.reachedIn n := by
  have hbelow := hn.here.2.level
  cases hlevel : n.kind.level with
  | file => exact absurd hlevel hfile
  | block => exact absurd hlevel hblock
  | plain => rw [enteredAll_of_plain hn hlevel, reachedIn_of_plain hn hlevel]
  | definition =>
    rcases Kind.eq_of_level_definition hlevel with h | h
    · have hroutine (name : String) : (if s.routine.kind = .module then .function else .closure) =
          (s.routine.ofFunction name).kind := by
        rw [Routine.ofFunction]
        cases hk : s.routine.kind <;> simp_all
      have hfunction := enteredAll_ofFunction hn ih h hs _ hroutine decorators
      obtain ⟨kind, field, text, row, flaw, children⟩ := n
      obtain rfl : kind = .functionDefinition := h
      exact hfunction
    · have hclass := enteredAll_ofClassBody hn ih h hs
      obtain ⟨kind, field, text, row, flaw, children⟩ := n
      obtain rfl : kind = .classDefinition := h
      exact hclass
  | decorated =>
    have h := Kind.eq_of_level_decorated hlevel
    have hdefined : enteredAll (ofDefinition s (decoratorNames n) n.children) = e.reachedIn n := by
      rw [ofDefinition_eq, reachedIn_of_decorated hn hlevel, Node.child?]
      cases hd : Node.withField? .definition n.children with
      | none => rfl
      | some d =>
        have hdlevel := level_of_definition hn hlevel hd
        exact (ih d (mem_of_child? hd).1).stmt _ hs hkind (by rw [hdlevel]; decide)
          (by rw [hdlevel]; decide)
    obtain ⟨kind, field, text, row, flaw, children⟩ := n
    obtain rfl : kind = .decoratedDefinition := h
    exact hdefined
  | managed =>
    have hbody := enteredAll_ofBlockField hn ih (.inr hlevel) hs hkind
    rw [reachedIn_of_ne_definition hs hkind (by rw [hlevel]; decide), ← hbody]
    have h := Kind.eq_of_level_managed hlevel
    obtain ⟨kind, field, text, row, flaw, children⟩ := n
    obtain rfl : kind = .withStatement := h
    exact enteredAll_ofWith _ _
  | clause =>
    have htry : n.kind ≠ .tryStatement := fun e => by simp [e, Kind.level] at hlevel
    rw [ofStmt_of_level (.inr hlevel) htry, enteredAll_singleton, entered,
      enteredArms_children hn ih (by simp [hlevel]) hs hkind,
      reachedIn_of_ne_definition hs hkind (by rw [hlevel]; decide)]
  | compound =>
    rw [reachedIn_of_ne_definition hs hkind (by rw [hlevel]; decide)]
    by_cases htry : n.kind = .tryStatement
    · rw [← entered_attempt hs hkind (fun c hc => ⟨ih c hc, hn.child hc, ?_⟩)
        (hn.here.2.finally_last htry)]
      · obtain ⟨kind, field, text, row, flaw, children⟩ := n
        obtain rfl : kind = .tryStatement := htry
        exact enteredAll_singleton _
      · have := hbelow c hc
        rwa [hlevel] at this
    · rw [ofStmt_of_level (.inl hlevel) htry, enteredAll_singleton, entered,
        enteredArms_children hn ih (by simp [hlevel]) hs hkind]

theorem reaches_arm (hn : n.Everywhere Node.Sound) (ih : ∀ c ∈ n.children, Reaches c)
    (hs : s.Meets e) (hkind : s.routine.kind ≠ .classBody)
    (hlevel : n.kind.level ∈ [Level.block, .clause, .plain]) :
    enteredArms (armsOf s [n]) = e.reachedIn n := by
  have hbelow := hn.here.2.level
  have hnamed := hn.here.isNamed
  simp only [List.mem_cons, List.not_mem_nil, or_false] at hlevel
  rcases hlevel with h | h | h
  · rw [enteredArms_block h hnamed, reachedIn_of_ne_definition hs hkind (by rw [h]; decide)]
    refine enteredAll_ofStmts hs hkind fun c hc => ⟨ih c hc, (hn.child hc).here.isNamed, ?_⟩
    have hc := hbelow c hc
    rw [h] at hc
    constructor <;> intro e <;> simp [e, Level.below] at hc
  · rw [armsOf_of_isClause (Kind.isClause_of_level h) hnamed,
      enteredArms_children hn ih (by simp [h]) hs hkind,
      reachedIn_of_ne_definition hs hkind (by rw [h]; decide)]
  · rw [(enteredArms_of_plain hn h).2, reachedIn_of_plain hn h]

/-- A statement of a class body that is no definition is passed over, with all that stands in it. -/
theorem reachedIn_of_passed (hs : s.Meets e) (hkind : s.routine.kind = .classBody)
    (h : ¬(n.kind.level = .definition ∨ n.kind.level = .decorated ∨ n.kind.level = .block)) :
    e.reachedIn n = [] := by
  have hinto : (e.into n.kind).reached = false := by
    rw [Enclosing.into, if_pos ⟨by rw [hs.routine, hkind], h⟩]
  rw [Enclosing.reachedIn_of_none (Routine.made?_eq_none fun e => h (.inl e))]
  exact Enclosing.reachedAmong_eq_nil fun c _ => Enclosing.reachedIn_of_unreached hinto c

/-- Of the members of a class the definitions are walked, with and without decorators. -/
theorem reaches_member (hn : n.Everywhere Node.Sound) (ih : ∀ c ∈ n.children, Reaches c)
    (hs : s.Meets e) (hkind : s.routine.kind = .classBody) (hblock : n.kind.level ≠ .block) :
    enteredAll (ofMember s decorators n) = e.reachedIn n := by
  by_cases hpassed : n.kind.level = .definition ∨ n.kind.level = .decorated ∨ n.kind.level = .block
  · rcases hpassed with hlevel | hlevel | hlevel
    · rcases Kind.eq_of_level_definition hlevel with h | h
      · have hroutine (name : String) : .method = (s.routine.ofFunction name).kind := by
          simp [Routine.ofFunction, hkind]
        have hfunction := enteredAll_ofFunction hn ih h hs _ hroutine decorators
        obtain ⟨kind, field, text, row, flaw, children⟩ := n
        obtain rfl : kind = .functionDefinition := h
        exact hfunction
      · have hclass := enteredAll_ofClassBody hn ih h hs
        obtain ⟨kind, field, text, row, flaw, children⟩ := n
        obtain rfl : kind = .classDefinition := h
        exact hclass
    · have h := Kind.eq_of_level_decorated hlevel
      have hdefined : enteredAll (ofDecoratedMember s (decoratorNames n) n.children) =
          e.reachedIn n := by
        rw [ofDecoratedMember_eq, reachedIn_of_decorated hn hlevel, Node.child?]
        cases hd : Node.withField? .definition n.children with
        | none => rfl
        | some d =>
          have hdlevel := level_of_definition hn hlevel hd
          exact (ih d (mem_of_child? hd).1).member _ hs hkind (by rw [hdlevel]; decide)
      obtain ⟨kind, field, text, row, flaw, children⟩ := n
      obtain rfl : kind = .decoratedDefinition := h
      exact hdefined
    · exact absurd hlevel hblock
  · rw [reachedIn_of_passed hs hkind hpassed]
    obtain ⟨kind, field, text, row, flaw, children⟩ := n
    unfold ofMember
    split
    · exact absurd (.inl rfl) hpassed
    · exact absurd (.inr (.inl rfl)) hpassed
    · exact absurd (.inl rfl) hpassed
    · exact enteredAll_probes _
    · rfl

theorem reaches_members (hn : n.Everywhere Node.Sound) (ih : ∀ c ∈ n.children, Reaches c)
    (hs : s.Meets e) (hkind : s.routine.kind = .classBody) (hlevel : n.kind.level = .block) :
    enteredAll (ofMembers s n.children) = e.reachedIn n := by
  rw [Enclosing.reachedIn_of_none (Routine.made?_eq_none (by rw [hlevel]; decide)),
    Enclosing.into_of_level (.inr (.inr hlevel))]
  refine enteredAll_ofMembers hs hkind fun c hc => ⟨ih c hc, (hn.child hc).here.isNamed, ?_⟩
  have hbelow := hn.here.2.level c hc
  rw [hlevel] at hbelow
  intro e
  simp [e, Level.below] at hbelow

end Cases

/-- **The walk comes to all definitions that can be reached.** The induction is on the tree, for all
roles of a node at once. -/
theorem reaches (hn : n.Everywhere Node.Sound) : Reaches n := by
  induction n using Node.ofChildren with
  | h n ih =>
    have ih (c : Node) (hc : c ∈ n.children) : Reaches c := ih c hc (hn.child hc)
    exact ⟨fun _ hs => reaches_stmt hn ih hs, fun hs => reaches_arm hn ih hs,
      fun _ hs => reaches_member hn ih hs, fun hs => reaches_members hn ih hs⟩

end Flow

/-! ## Classes with nothing but definitions -/

namespace Syntax.Node

/-- A definition, decorated or not, or something in which nothing is defined. -/
def Apart (n : Node) : Prop :=
  n.kind.level = .definition ∨ n.kind.level = .decorated ∨ ∀ d ∈ n.preorder, d.makesRoutine = false

/-- Whatever is defined in a class body is defined directly in it, not in a statement such as an
`if`. -/
def DefinesDirectly (n : Node) : Prop :=
  n.kind = .classDefinition → ∀ b ∈ n.children, b.kind = .block → ∀ m ∈ b.children, m.Apart

instance : DecidablePred Apart := fun _ => inferInstanceAs (Decidable (_ ∨ _ ∨ _))

instance : DecidablePred DefinesDirectly := fun n =>
  inferInstanceAs (Decidable (n.kind = .classDefinition → ∀ b ∈ n.children, b.kind = .block →
    ∀ m ∈ b.children, m.Apart))

end Syntax.Node

section Direct

variable {e : Enclosing} {n : Node}

/-- What can stand in a class without being passed over. -/
def Syntax.Node.Admitted (n : Node) : Prop :=
  n.Apart ∨ n.kind.level = .block ∧ ∀ m ∈ n.children, m.Apart

theorem admitted_of_classDefinition (hn : n.Everywhere Node.Sound)
    (hdirect : n.Everywhere Node.DefinesDirectly) (hclass : n.kind = .classDefinition) :
    ∀ c ∈ n.children, c.Admitted := by
  intro c hc
  have hlevel := hn.here.2.level c hc
  rw [hclass] at hlevel
  simp only [Kind.level, Level.below, List.mem_cons, List.not_mem_nil, or_false] at hlevel
  rcases hlevel with hlevel | hlevel
  · exact .inr ⟨hlevel, hdirect.here hclass c hc (Kind.eq_of_level_block hlevel)⟩
  · exact .inl (.inr (.inr (makesRoutine_of_plain (hn.child hc).nested hlevel)))

/-- Nothing is passed over if all classes define directly. -/
theorem reached_of_definesDirectly (hn : n.Everywhere Node.Sound)
    (hdirect : n.Everywhere Node.DefinesDirectly) (he : e.reached = true)
    (hadmitted : e.routine.kind = .classBody → n.Admitted) :
    ∀ d ∈ definitionsIn e n, d.reached = true := by
  induction n using Node.ofChildren generalizing e with
  | h n ih =>
    by_cases hnone : ∀ d ∈ n.preorder, d.makesRoutine = false
    · rw [definitionsIn_eq_nil hnone]
      nofun
    · have hhere : e.routine.kind = .classBody →
          n.kind.level = .definition ∨ n.kind.level = .decorated ∨
            n.kind.level = .block ∧ ∀ m ∈ n.children, m.Apart := fun hclass => by
        rcases hadmitted hclass with (h | h | h) | h
        · exact .inl h
        · exact .inr (.inl h)
        · exact absurd h hnone
        · exact .inr (.inr h)
      have hinto : e.into n.kind = e := by
        by_cases hclass : e.routine.kind = .classBody
        · exact Enclosing.into_of_level ((hhere hclass).imp_right (.imp_right And.left))
        · exact Enclosing.into_of_ne hclass _
      have hreached {e' : Enclosing} (he' : e'.reached = true)
          (hall : e'.routine.kind = .classBody → ∀ c ∈ n.children, c.Admitted) :
          ∀ d ∈ n.children.flatMap (definitionsIn e'), d.reached = true := fun d hd => by
        obtain ⟨c, hc, hd⟩ := List.mem_flatMap.1 hd
        exact ih c hc (hn.child hc) (hdirect.child hc) he' (fun h => hall h c hc) d hd
      cases hmade : e.routine.made? n with
      | some inner =>
        rw [definitionsIn_of_some hmade, hinto, he]
        exact List.forall_mem_cons.2 ⟨rfl, hreached rfl fun hclass =>
          admitted_of_classDefinition hn hdirect (Routine.kind_of_made? hmade hclass)⟩
      | none =>
        rw [definitionsIn_of_none hmade, hinto]
        refine hreached he fun hclass => ?_
        rcases hhere hclass with h | h | ⟨-, h⟩
        · refine admitted_of_classDefinition hn hdirect ?_
          refine (Kind.eq_of_level_definition h).resolve_left fun hfunction => ?_
          obtain ⟨name, hname⟩ := Option.isSome_iff_exists.1 (hn.here.2.name h)
          simp [Routine.made?, hfunction, hname] at hmade
        · intro c hc
          have hlevel := hn.here.2.level c hc
          rw [h] at hlevel
          simp only [Level.below, List.mem_cons, List.not_mem_nil, or_false] at hlevel
          rcases hlevel with hlevel | hlevel
          · exact .inl (.inl hlevel)
          · exact .inl (.inr (.inr (makesRoutine_of_plain (hn.child hc).nested hlevel)))
        · exact fun c hc => .inl (h c hc)

end Direct

/-! ## The walk of a file -/

theorem enters_walk_eq_reached (mode : Lock.HoldMode) (names : Lock.Names) {u : SourceUnit}
    (hmodule : u.tree.kind = .module) (hsound : u.tree.Everywhere Node.Sound) :
    enters (walk mode names u) =
      Scope.topLevel :: (u.definitions.filter Definition.reached).map Definition.routine := by
  have hmeets : (Scope.ofUnit names u).Meets ⟨Scope.topLevel, true⟩ := ⟨rfl, rfl, rfl⟩
  have hkind : (Scope.ofUnit names u).routine.kind ≠ .classBody := nofun
  have hfile : u.tree.kind.level = .file := by rw [hmodule]; rfl
  have hstmts : Flow.enteredAll (Flow.ofUnit names u) =
      Enclosing.reachedIn ⟨Scope.topLevel, true⟩ u.tree := by
    rw [Flow.reachedIn_of_ne_definition hmeets hkind (by rw [hfile]; decide)]
    refine Flow.enteredAll_ofStmts hmeets hkind fun c hc =>
      ⟨Flow.reaches (hsound.child hc), (hsound.child hc).here.isNamed, ?_⟩
    have hlevel := hsound.here.2.level c hc
    rw [hfile] at hlevel
    constructor <;> intro e <;> simp [e, Level.below] at hlevel
  have hrun := Flow.enters_runAll mode Scope.topLevel [] (Flow.ofUnit names u)
  exact congrArg (Scope.topLevel :: ·) (hrun.trans hstmts)

/-- **A walk enters each definition once, in the order of the text**, apart from those in a
statement of a class body that is no definition. -/
theorem enters_walk (mode : Lock.HoldMode) (names : Lock.Names) {u : SourceUnit}
    (hu : u.check = .ok ()) (hnested : u.tree.Everywhere Node.Nested) :
    u.definitions.map Definition.node = u.tree.preorder.filter Node.makesRoutine ∧
    enters (walk mode names u) =
      Scope.topLevel :: (u.definitions.filter Definition.reached).map Definition.routine ∧
    (u.tree.Everywhere Node.DefinesDirectly →
      enters (walk mode names u) = Scope.topLevel :: u.definitions.map Definition.routine) := by
  obtain ⟨hmodule, hflaw⟩ := SourceUnit.flaw_of_check hu
  have hsound : u.tree.Everywhere Node.Sound := hflaw.and hnested
  have hwalk := enters_walk_eq_reached mode names hmodule hsound
  refine ⟨map_node_definitionsIn _ _, hwalk, fun hdirect => ?_⟩
  have hreached : ∀ d ∈ u.definitions, d.reached = true :=
    reached_of_definesDirectly hsound hdirect rfl nofun
  rw [hwalk, List.filter_eq_self.2 hreached]

section Example

open Node

/-- A class that defines something in an `if`, and definitions in other places. -/
def workshop (guarded : List Node) : SourceUnit :=
  .ofStatements "workshop.py" [
    classOf (ident 0 "Pool") (guarded ++ [
      decorated (ident 4 "traced") (function (ident 5 "put") ["self"] [
        tryFinally 6 [function (ident 7 "step") [] [pass 8]]
          [function (ident 10 "undo") [] [pass 11]]])]),
    function (ident 12 "main") [] [
      forOn (ident 13 "x") (ident 13 "xs") [
        classOf (ident 14 "Job") [function (ident 15 "run") ["self"] [pass 16]]]]]

/-- A method that is defined only under a condition. -/
def conditionally : Node :=
  ifOn (ident 1 "DEBUG") [function (ident 2 "dump") ["self"] [pass 3]]

theorem enters_walk_workshop :
    (workshop [conditionally]).check = .ok () ∧
    (workshop [conditionally]).tree.Everywhere Nested ∧
    (enters (walk .must ⟨[]⟩ (workshop [conditionally]))).map Routine.name =
      ["<module>", "Pool", "Pool.put", "Pool.put.step", "Pool.put.undo", "main", "Job", "Job.run"] ∧
    (workshop []).tree.Everywhere DefinesDirectly ∧
    (enters (walk .must ⟨[]⟩ (workshop []))).length =
      1 + ((workshop []).tree.preorder.filter makesRoutine).length := by
  have hcheck : (workshop [conditionally]).check = .ok () := rfl
  have hnested : (workshop [conditionally]).tree.Everywhere Nested := by decide +kernel
  have hdirect : (workshop []).tree.Everywhere DefinesDirectly := by decide +kernel
  obtain ⟨-, hwalk, -⟩ := enters_walk .must ⟨[]⟩ hcheck hnested
  obtain ⟨hnodes, -, hall⟩ := enters_walk .must ⟨[]⟩ (u := workshop []) rfl (by decide +kernel)
  refine ⟨hcheck, hnested, ?_, hdirect, ?_⟩
  · rw [hwalk]
    decide +kernel
  · rw [hall hdirect, ← hnodes, List.length_cons, List.length_map, List.length_map, Nat.add_comm]

/-- What a class defines in an `if` is not entered. -/
theorem enters_walk_overlooks :
    (workshop [conditionally]).check = .ok () ∧
    (workshop [conditionally]).tree.Everywhere Nested ∧
    ((workshop [conditionally]).tree.preorder.filter makesRoutine).filterMap
        (fun n => (n.child? .name).map Node.text) =
      ["Pool", "dump", "put", "step", "undo", "main", "Job", "run"] ∧
    (enters (walk .must ⟨[]⟩ (workshop [conditionally]))).map Routine.shortName =
      ["<module>", "Pool", "put", "step", "undo", "main", "Job", "run"] :=
  ⟨rfl, by decide +kernel, by decide +kernel, by decide +kernel⟩

end Example

end Interlock
