import Interlock.Proofs.Flow.Origin
import Interlock.Proofs.Flow.Statement
import Interlock.Proofs.Flow.Uses
import Interlock.Proofs.Syntax.Build

/-!
# What marks an attribute

An attribute counts as a lock or as a thread-safe container if its class makes it so, by an
assignment of the value of a constructor (`Making`). A making is a class's own if what it assigns
is the attribute itself: `self.q` in a method or in a function inside one, or the plain name in the
body of the class (`Making.isOwn`).

The walk does not ask whose attribute is assigned. What it reports of an attribute is decided by
the makings of anything with the name of the attribute, the local variables of methods and the
attributes of other objects among them (`marks_of_makings`, `marks_of_makings_namesakes`). Only
where all these are the class's own does a mark say something of the attribute.
-/

namespace Interlock

open Syntax Lock

/-! ## Makings -/

/-- An assignment of the value of a call to something with a name. -/
structure Making where
  /-- Where the assignment stands. -/
  scope : Scope
  target : Node
  name : String
  callee : String

namespace Making

/-- The assignment is made to an attribute of the class in whose scope it stands. -/
def isOwn (m : Making) : Bool :=
  if m.scope.routine.kind = .classBody then m.target.kind = .identifier
  else m.scope.isOwnAttr m.target

/-- The type of the thread-safe container that is made. -/
def container? (m : Making) : Option String :=
  if isConstructor m.callee then none else threadSafeType? m.callee

/-- What an assignment makes. -/
def of? (s : Scope) (n : Node) : Option Making := do
  let target ← n.child? .left
  let (name, callee) ← madeBy? n
  return ⟨s, target, name, callee⟩

theorem map_of? (s : Scope) (n : Node) :
    (of? s n).map (fun m => (m.name, m.callee)) = madeBy? n := by
  unfold of?
  cases hleft : n.child? .left with
  | none => simp [madeBy?, hleft]
  | some left => cases madeBy? n <;> rfl

end Making

namespace Scope

/-- The scope of what stands directly below a node, if the node is no class. -/
def into (s : Scope) (decorators : List String) (n : Node) : Scope :=
  match n.kind, n.child? .name with
  | .functionDefinition, some name =>
    s.ofFunction (if s.routine.kind = .classBody then .method else .closure) decorators n name.text
  | _, _ => s

mutual

/-- What is made in a tree, in the order of the text. Nested classes are left out. -/
def makingsIn (s : Scope) (decorators : List String) : Node → List Making
  | n@⟨kind, _, _, _, _, children⟩ =>
    (if kind = .assignment then (Making.of? s n).toList else []) ++
      makingsAmong (s.into decorators n) (Flow.decoratorsOf n) children

/-- The same for a list of siblings. -/
def makingsAmong (s : Scope) (decorators : List String) : List Node → List Making
  | [] => []
  | c :: rest =>
    (if c.isNamed && c.kind ≠ .classDefinition then makingsIn s decorators c else []) ++
      makingsAmong s decorators rest

end

mutual

/-- The makings are those that the facts about a class are read from, here with the scope of
each. -/
theorem map_makingsIn (s : Scope) (decorators : List String) (n : Node) :
    (s.makingsIn decorators n).map (fun m => (m.name, m.callee)) = madeIn n := by
  obtain ⟨kind, field, text, row, flaw, children⟩ := n
  rw [makingsIn, madeIn, List.map_append, map_makingsAmong]
  congr 1
  split
  · rw [← Making.map_of? s, Option.toList_map]
  · rfl

theorem map_makingsAmong (s : Scope) (decorators : List String) (nodes : List Node) :
    (s.makingsAmong decorators nodes).map (fun m => (m.name, m.callee)) = madeAmong nodes := by
  match nodes with
  | [] => rfl
  | c :: rest =>
    rw [makingsAmong, madeAmong, List.map_append, map_makingsAmong s decorators rest]
    congr 1
    split
    · exact map_makingsIn s decorators c
    · rfl

end

end Scope

/-! ## Classes -/

/-- A class with its qualified name. -/
structure ClassBody where
  name : String
  body : Node

/-- A class of a file: the name of a definition, after that of the class around it if there is one,
and the body. -/
def Syntax.SourceUnit.HasClass (u : SourceUnit) (k : ClassBody) : Prop :=
  ∃ n ∈ u.tree.preorder, n.kind = .classDefinition ∧ n.child? .body = some k.body ∧
    ∃ name, n.child? .name = some name ∧
      (k.name = name.text ∨ ∃ outer : String, k.name = s!"{outer}.{name.text}")

namespace ClassBody

variable (k : ClassBody)

/-- The scope of the body, for what stands for the object. Which names are locks plays no part. -/
def scope : Scope where
  names := {}
  moduleLocks := []
  routine := ⟨k.name, Text.leaf k.name, some k.name, .classBody⟩
  owner := some (.ofBody k.name k.body)
  receivers := []

/-- What the class makes of anything with a given name. -/
def makingsOf (name : String) : List Making :=
  (k.scope.makingsIn [] k.body).filter fun m => m.name = name

theorem find?_filterMap_container? (name : String) (makings : List Making) :
    ((makings.filterMap fun m => m.container?.map (m.name, ·)).find? (·.1 = name)).map Prod.snd =
      ((makings.filter fun m => m.name = name).filterMap Making.container?).head? := by
  induction makings with
  | nil => rfl
  | cons m rest ih =>
    cases hm : m.container? with
    | none =>
      rw [List.filterMap_cons_none (by rw [hm]; rfl), ih, List.filter_cons]
      split
      · rw [List.filterMap_cons_none hm]
      · rfl
    | some type =>
      rw [List.filterMap_cons_some (b := (m.name, type)) (by rw [hm]; rfl)]
      by_cases hname : m.name = name
      · simp [hname, hm]
      · rw [List.find?_cons_of_neg (by simpa using hname), ih,
          List.filter_cons_of_neg (by simpa using hname)]

/-- The last making decides on the type. -/
theorem threadSafeType?_ofBody (name : String) :
    (ClassFacts.ofBody k.name k.body).threadSafeType? name =
      ((k.makingsOf name).filterMap Making.container?).getLast? := by
  have hthreadSafe : (ClassFacts.ofBody k.name k.body).threadSafe =
      (k.scope.makingsIn [] k.body).filterMap fun m => m.container?.map (m.name, ·) := by
    change (madeIn k.body).filterMap _ = _
    rw [← k.scope.map_makingsIn [], List.filterMap_map]
    refine List.filterMap_congr fun m _ => ?_
    simp only [Function.comp_apply, Making.container?]
    split <;> rfl
  rw [ClassFacts.threadSafeType?, hthreadSafe, ← List.filterMap_reverse,
    find?_filterMap_container?, List.filter_reverse, List.filterMap_reverse,
    List.head?_reverse, makingsOf]

/-- An attribute is known as a lock if some making of that name makes a lock. -/
theorem contains_lockAttrs (name : String) :
    (ClassFacts.ofBody k.name k.body).lockAttrs.contains name = true ↔
      ∃ m ∈ k.makingsOf name, isConstructor m.callee = true := by
  have hattrs : (ClassFacts.ofBody k.name k.body).lockAttrs =
      ((madeIn k.body).filter fun m => isConstructor m.2).map Prod.fst := rfl
  rw [hattrs, ← k.scope.map_makingsIn [], List.contains_iff_mem]
  simp only [List.mem_map, List.mem_filter, makingsOf]
  constructor
  · rintro ⟨_, ⟨⟨m, hm, rfl⟩, hlock⟩, hname⟩
    exact ⟨m, ⟨hm, decide_eq_true hname⟩, hlock⟩
  · rintro ⟨m, ⟨hm, hname⟩, hlock⟩
    exact ⟨_, ⟨⟨m, hm, rfl⟩, hlock⟩, of_decide_eq_true hname⟩

end ClassBody

namespace Scope

variable {names : Names} {u : SourceUnit} {s : Scope} {n : Node} {c : ClassFacts}

/-- An attribute of the object is taken for a lock if it is known as one or looks like one. -/
theorem lockOf?_of_isOwnAttr {attr : Node} (hs : s.owner = some c) (hn : s.isOwnAttr n = true)
    (hattr : n.child? .attr = some attr) : s.lockOf? n =
      if c.lockAttrs.contains attr.text || s.names.looksLikeLock attr.text then
        some s!"{c.name}.{attr.text}"
      else none := by
  obtain ⟨kind, field, text, row, flaw, children⟩ := n
  rw [isOwnAttr, Bool.and_eq_true] at hn
  obtain ⟨hkind, hobject⟩ := hn
  obtain rfl : kind = .attr := by simpa using hkind
  obtain ⟨object, hobject, hreceiver⟩ := (Option.any_eq_true _ _).1 hobject
  rw [Node.child?] at hattr hobject
  simp [lockOf?, hobject, hattr, hreceiver, hs]

/-- What the scopes of a file know of their class is what its body says. -/
theorem Governs.owner (h : Governs names u s n) : n ∈ u.tree.preorder ∧ s.names = names ∧
    ∀ c, s.owner = some c → s.routine.owner = some c.name ∧
      ∃ k, u.HasClass k ∧ c = .ofBody k.name k.body ∧ n ∈ k.body.preorder := by
  induction h with
  | file mem => exact ⟨Node.mem_preorder_of_child mem, rfl, nofun⟩
  | child _ mem ih =>
    obtain ⟨htree, hnames, howner⟩ := ih
    have hchild := Node.mem_preorder_of_child mem
    refine ⟨Node.preorder_trans hchild htree, hnames, fun c hc => ?_⟩
    obtain ⟨hroutine, k, hk, hfacts, hbody⟩ := howner c hc
    exact ⟨hroutine, k, hk, hfacts, Node.preorder_trans hchild hbody⟩
  | function _ _ _ kind decorators ih =>
    -- a function keeps the class around it
    obtain ⟨htree, hnames, howner⟩ := ih
    refine ⟨htree, hnames, fun c hc => ⟨?_, (howner c hc).2⟩⟩
    exact congrArg (Option.map ClassFacts.name) hc
  | @classBody s n name body _ isClass named hasBody ih =>
    obtain ⟨htree, hnames, -⟩ := ih
    have hbody := Node.mem_preorder_of_child (mem_of_withField? hasBody).1
    refine ⟨Node.preorder_trans hbody htree, hnames, fun c hc => ?_⟩
    obtain rfl := Option.some.inj hc
    refine ⟨rfl, ⟨_, body⟩, ⟨n, htree, isClass, hasBody, name, named, ?_⟩, rfl,
      body.mem_preorder_self⟩
    cases s.owner with
    | none => exact .inl rfl
    | some outer => exact .inr ⟨outer.name, rfl⟩

/-- A lock is recognised by its name or by what is made of anything with its name. -/
theorem lockOf?_eq_some_iff {k : ClassBody} {attr : Node} {lock : String}
    (hs : s.owner = some (.ofBody k.name k.body)) (hn : s.isOwnAttr n = true)
    (hattr : n.child? .attr = some attr) : s.lockOf? n = some lock ↔
      lock = s!"{k.name}.{attr.text}" ∧ (s.names.looksLikeLock attr.text = true ∨
        ∃ m ∈ k.makingsOf attr.text, isConstructor m.callee = true) := by
  rw [lockOf?_of_isOwnAttr hs hn hattr, Option.ite_none_right_eq_some, Bool.or_eq_true,
    k.contains_lockAttrs, Option.some.injEq, and_comm, or_comm, eq_comm]
  rfl

end Scope

/-- An access to an attribute carries what the class makes of anything with its name. -/
theorem Probe.ComesFrom.threadSafe {s : Scope} {n : Node} {detached : Bool} {a : AttrAccess}
    (h : (Probe.access detached a).ComesFrom s n) :
    (∃ m ∈ n.preorder, a.line = m.line) ∧
      ∃ c, s.owner = some c ∧ a.threadSafe = c.threadSafeType? a.attr := by
  cases h with
  | @access m _ _ mem probed =>
    obtain ⟨c, hc, hprobed⟩ := Option.bind_eq_some_iff.1 probed
    split at hprobed
    · cases hprobed
    · have ha := (Probe.access.inj (Option.some.inj hprobed)).2
      exact ⟨⟨m, mem, (congrArg AttrAccess.line ha).symm⟩, c, hc,
        (congrArg AttrAccess.threadSafe ha).symm⟩

/-! ## Marks -/

section Marks

variable {mode : HoldMode} {names : Names} {u : SourceUnit}

/-- An access stands in a class, which decides on its type. -/
theorem exists_class_of_access {r : Routine} {held : HeldLocks} {a : AttrAccess}
    (h : .access r held a ∈ walk mode names u) :
    ∃ k, u.HasClass k ∧ r.owner = some k.name ∧ (∃ m ∈ k.body.preorder, a.line = m.line) ∧
      a.threadSafe = ((k.makingsOf a.attr).filterMap Making.container?).getLast? := by
  obtain ⟨r', he⟩ | ⟨s, n, mark, held', hn, hmark, he⟩ := exists_origin h
  · cases he
  · cases hmark with
    | enter | lock | decorator => cases he
    | probe comes =>
      rename_i p
      cases p with
      | ownCall => cases he
      | access detached a' =>
        obtain ⟨rfl, -, rfl⟩ := Event.access.inj he
        obtain ⟨⟨m, hm, hline⟩, c, hc, hsafe⟩ := comes.threadSafe
        obtain ⟨-, -, howner⟩ := hn.owner
        obtain ⟨hroutine, k, hk, rfl, hbody⟩ := howner c hc
        refine ⟨k, hk, hroutine, ⟨m, Node.preorder_trans hm hbody, hline⟩, ?_⟩
        rw [hsafe, k.threadSafeType?_ofBody]

/-- A lock is taken for a decorator or for an expression that denotes it. -/
theorem exists_scope_of_acquire {r : Routine} {held : HeldLocks} {lock : String} {line : Nat}
    (h : .acquire r held lock line ∈ walk mode names u) :
    ∃ s n, Scope.Governs names u s n ∧ r = s.routine ∧
      ((∃ m ∈ n.preorder, s.lockOf? m = some lock) ∨
        ∃ decorators, lock ∈ Flow.decoratorLocks s decorators) := by
  obtain ⟨r', he⟩ | ⟨s, n, mark, held', hn, hmark, he⟩ := exists_origin h
  · cases he
  · cases hmark with
    | enter => cases he
    | probe comes =>
      rename_i p
      cases p <;> cases he
    | lock mem denotes line =>
      obtain ⟨rfl, -, rfl, -⟩ := Event.acquire.inj he
      exact ⟨_, n, hn, rfl, .inl ⟨_, mem, denotes⟩⟩
    | decorator mem line =>
      obtain ⟨rfl, -, rfl, -⟩ := Event.acquire.inj he
      exact ⟨_, n, hn, rfl, .inr ⟨_, mem⟩⟩

/-- **What marks an attribute** is the makings in its class of anything with its name. The type that
an access carries is that of the last of these that makes a thread-safe container, and `self.a` is a
lock if its name looks like one or one of these makes a lock. If those that make the same are all
the class's own, a mark says that the attribute itself is so made. -/
theorem marks_of_makings (mode : HoldMode) (names : Names) (u : SourceUnit) :
    (∀ r held a, .access r held a ∈ walk mode names u →
      ∃ k, u.HasClass k ∧ r.owner = some k.name ∧ (∃ m ∈ k.body.preorder, a.line = m.line) ∧
        a.threadSafe = ((k.makingsOf a.attr).filterMap Making.container?).getLast? ∧
        ∀ type ∈ a.threadSafe,
          (∀ m ∈ k.makingsOf a.attr, m.container? = some type → m.isOwn = true) →
            ∃ m ∈ k.makingsOf a.attr, m.isOwn = true ∧ m.container? = some type) ∧
      (∀ r held lock line, .acquire r held lock line ∈ walk mode names u →
        ∃ s n, Scope.Governs names u s n ∧ r = s.routine ∧
          ((∃ m ∈ n.preorder, s.lockOf? m = some lock) ∨
            ∃ decorators, lock ∈ Flow.decoratorLocks s decorators)) ∧
      ∀ s n c, Scope.Governs names u s n → s.owner = some c →
        ∃ k, u.HasClass k ∧ s.routine.owner = some k.name ∧ n ∈ k.body.preorder ∧
          ∀ m attr lock, s.isOwnAttr m = true → m.child? .attr = some attr →
            (s.lockOf? m = some lock ↔ lock = s!"{k.name}.{attr.text}" ∧
              (names.looksLikeLock attr.text = true ∨
                ∃ d ∈ k.makingsOf attr.text, isConstructor d.callee = true)) ∧
            (s.lockOf? m = some lock → names.looksLikeLock attr.text = false →
              (∀ d ∈ k.makingsOf attr.text, isConstructor d.callee = true → d.isOwn = true) →
                ∃ d ∈ k.makingsOf attr.text, d.isOwn = true ∧ isConstructor d.callee = true) := by
  refine ⟨fun r held a h => ?_, fun r held lock line h => exists_scope_of_acquire h,
    fun s n c hn hc => ?_⟩
  · obtain ⟨k, hk, howner, hline, hsafe⟩ := exists_class_of_access h
    refine ⟨k, hk, howner, hline, hsafe, fun type htype hown => ?_⟩
    obtain ⟨m, hm, hmade⟩ := List.mem_filterMap.1 (List.mem_of_getLast? (hsafe ▸ htype))
    exact ⟨m, hm, hown m hm hmade, hmade⟩
  · obtain ⟨-, rfl, howner⟩ := hn.owner
    obtain ⟨hroutine, k, hk, rfl, hbody⟩ := howner c hc
    refine ⟨k, hk, hroutine, hbody, fun m attr lock hm hattr => ?_⟩
    refine ⟨Scope.lockOf?_eq_some_iff hc hm hattr, fun hlock hname hown => ?_⟩
    have hmade := ((Scope.lockOf?_eq_some_iff hc hm hattr).1 hlock).2
    obtain ⟨d, hd, hmade⟩ := hmade.resolve_left (by simp [hname])
    exact ⟨d, hd, hown d hd hmade, hmade⟩

end Marks

section Example

open Node

/-- Whose makings those of a class are, read off all class bodies of its file. -/
theorem Syntax.SourceUnit.HasClass.isOwn {u : SourceUnit} {k : ClassBody} {name attr : String}
    {own : Bool} (hk : u.HasClass k) (hname : k.name = name)
    (h : ∀ n ∈ u.tree.preorder, n.kind = .classDefinition → ∀ b ∈ n.child? .body,
      ∀ m ∈ ClassBody.makingsOf ⟨name, b⟩ attr, m.isOwn = own) :
    ∀ m ∈ k.makingsOf attr, m.isOwn = own := by
  obtain ⟨n, hn, hclass, hbody, -⟩ := hk
  subst hname
  exact h n hn hclass k.body hbody

/-- The method `put` of a class. -/
def putting : Routine := ⟨"Pool.put", "put", some "Pool", .method⟩

/-- The call `self.q.append()`, as an access that takes the attribute for a queue. -/
def appending (line : Nat) : AttrAccess :=
  ⟨"q", .write, line, false, "self", some "append", some "Queue"⟩

/-- A method with a function inside that makes a queue. -/
def filling : Node :=
  function (ident 2 "put") ["self"] [
    function (ident 3 "fill") [] [construct ((ident 4 "self").dot "q") "Queue"],
    withOn ((ident 5 "self").dot "data") [invoke ((ident 6 "self").dot "q") "append"]]

/-- A class whose body makes a lock. -/
def stocked : SourceUnit :=
  .ofStatements "pool.py" [classOf (ident 0 "Pool") [construct (ident 1 "data") "Lock", filling]]

/-- The attribute `self.data`. -/
def ownData : Node := (ident 5 "self").dot "data"

theorem marks_of_makings_stocked :
    (.access putting [⟨"Pool.data", true⟩] (appending 7) ∈ walk .must {} stocked ∧
      ∃ k, stocked.HasClass k ∧ k.name = "Pool" ∧
        ∃ m ∈ k.makingsOf "q", m.isOwn = true ∧ m.container? = some "Queue") ∧
    .acquire putting [] "Pool.data" 6 ∈ walk .must {} stocked ∧
    ∃ s n, Scope.Governs {} stocked s n ∧ s.routine = putting ∧ s.isOwnAttr ownData = true ∧
      s.lockOf? ownData = some "Pool.data" ∧
      ∃ k, stocked.HasClass k ∧ k.name = "Pool" ∧
        ∃ m ∈ k.makingsOf "data", m.isOwn = true ∧ isConstructor m.callee = true := by
  obtain ⟨haccess, -, hlock⟩ := marks_of_makings .must {} stocked
  have hmem : .access putting [⟨"Pool.data", true⟩] (appending 7) ∈ walk .must {} stocked := by
    decide +kernel
  have hscope : ∃ s n c, Scope.Governs {} stocked s n ∧ s.owner = some c ∧ s.routine = putting ∧
      s.isOwnAttr ownData = true ∧ s.lockOf? ownData = some "Pool.data" :=
    ⟨_, _, _, .function (.child (.classBody (.file List.mem_cons_self) rfl rfl rfl)
      (List.mem_cons_of_mem _ List.mem_cons_self)) rfl rfl .method [], rfl, rfl,
      by decide +kernel, by decide +kernel⟩
  obtain ⟨s, n, c, hs, hc, hroutine, hattr, hlocked⟩ := hscope
  refine ⟨⟨hmem, ?_⟩, by decide +kernel, s, n, hs, hroutine, hattr, hlocked, ?_⟩
  · obtain ⟨k, hk, hname, -, -, hmade⟩ := haccess _ _ _ hmem
    have hname : k.name = "Pool" := (Option.some.inj hname).symm
    exact ⟨k, hk, hname, hmade "Queue" rfl fun m hm _ => hk.isOwn hname (by decide +kernel) m hm⟩
  · obtain ⟨k, hk, hname, -, hmade⟩ := hlock s n c hs hc
    have hname : k.name = "Pool" := by simpa [hroutine, putting] using hname.symm
    exact ⟨k, hk, hname, (hmade ownData _ _ hattr rfl).2 hlocked (by decide +kernel)
      fun m hm _ => hk.isOwn hname (by decide +kernel) m hm⟩

/-- A class with a method that makes something. -/
def namesake (target : Node) (maker : String) : SourceUnit :=
  .ofStatements "pool.py" [
    classOf (ident 0 "Pool") [
      function (ident 1 "put") ["self", "other"] [
        construct target maker,
        withOn ((ident 3 "self").dot "data") [invoke ((ident 4 "self").dot "q") "append"]]]]

/-- A local variable, or an attribute of another object, marks the attribute of the same name. -/
theorem marks_of_makings_namesakes :
    (∀ target ∈ [ident 2 "q", (ident 2 "other").dot "q"],
      .access putting [] (appending 5) ∈ walk .must {} (namesake target "Queue") ∧
        ∀ k, (namesake target "Queue").HasClass k → k.name = "Pool" →
          ∀ m ∈ k.makingsOf "q", m.isOwn = false) ∧
    ∀ target ∈ [ident 2 "data", (ident 2 "other").dot "data"],
      .acquire putting [] "Pool.data" 4 ∈ walk .must {} (namesake target "Lock") ∧
        Names.looksLikeLock {} "data" = false ∧
        ∀ k, (namesake target "Lock").HasClass k → k.name = "Pool" →
          ∀ m ∈ k.makingsOf "data", m.isOwn = false := by
  have hqueue : ∀ target ∈ [ident 2 "q", (ident 2 "other").dot "q"],
      .access putting [] (appending 5) ∈ walk .must {} (namesake target "Queue") ∧
        ∀ n ∈ (namesake target "Queue").tree.preorder, n.kind = .classDefinition →
          ∀ b ∈ n.child? .body, ∀ m ∈ ClassBody.makingsOf ⟨"Pool", b⟩ "q", m.isOwn = false := by
    decide +kernel
  have hlock : ∀ target ∈ [ident 2 "data", (ident 2 "other").dot "data"],
      .acquire putting [] "Pool.data" 4 ∈ walk .must {} (namesake target "Lock") ∧
        ∀ n ∈ (namesake target "Lock").tree.preorder, n.kind = .classDefinition →
          ∀ b ∈ n.child? .body, ∀ m ∈ ClassBody.makingsOf ⟨"Pool", b⟩ "data", m.isOwn = false := by
    decide +kernel
  refine ⟨fun target htarget => ?_, fun target htarget => ?_⟩
  · obtain ⟨hmem, hmakings⟩ := hqueue target htarget
    exact ⟨hmem, fun k hk hname => hk.isOwn hname hmakings⟩
  · obtain ⟨hmem, hmakings⟩ := hlock target htarget
    exact ⟨hmem, by decide +kernel, fun k hk hname => hk.isOwn hname hmakings⟩

end Example

end Interlock
