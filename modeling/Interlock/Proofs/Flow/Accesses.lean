import Interlock.Proofs.Flow.Uses

/-!
# The accesses that an expression makes

What an expression does is what those of its uses come to that are looked at, in the order of the
text: `Scope.traced` for what is evaluated or called, `Scope.targetProbes_eq` for a target.

The two sides go about it differently. `Scope.probes` goes from the end of a chain to its root
(`Scope.rootAttr?`) and comes back for some of the indices; `Scope.usesIn` goes down once and tells
each part where it stands. `Scope.Traced` is what the induction over the expression needs: the parts
of a chain have to agree as well, with the access to the root first and the indices after it.
-/

namespace Interlock

open Syntax

namespace Scope

variable {s : Scope} {n : Node} {p : Spot} {d : Bool}

/-! ## What is looked at -/

theorem seen_append (us vs : List Use) : s.seen (us ++ vs) = s.seen us ++ s.seen vs := by
  rw [seen, List.filter_append, List.filterMap_append, seen, seen]

theorem seen_flatMap {α : Type} (f : α → List Use) (xs : List α) :
    s.seen (xs.flatMap f) = xs.flatMap fun x => s.seen (f x) := by
  induction xs with
  | nil => rfl
  | cons x rest ih => rw [List.flatMap_cons, seen_append, ih, List.flatMap_cons]

theorem seen_singleton {u : Use} (h : u.hidden = false) : s.seen [u] = (s.useProbe? u).toList := by
  rw [seen, List.filter_cons_of_pos (by simp [h]), List.filter_nil, List.filterMap_cons]
  cases s.useProbe? u <;> rfl

/-- A part of what is not looked at is not looked at either. -/
theorem hidden_part (h : p.hidden = true) (fresh : Bool) (role : Option Field) :
    (p.part n fresh role).hidden = true := by
  unfold Spot.part
  split
  · split
    · simp [h]
    · split <;> exact h
  · split <;> exact h
  · exact h
  · split <;> simp [h]

/-- Nothing is looked at inside what is not looked at. -/
theorem hidden_of_mem_usesIn (h : p.hidden = true) : ∀ u ∈ s.usesIn p n, u.hidden = true := by
  induction n using Node.ofChildren generalizing p with
  | h n ih =>
    cases hown : s.isOwnAttr n with
    | true =>
      rw [usesIn_of_own hown]
      simpa using h
    | false =>
      have hparts (q : Spot) (hq : q.hidden = true) (nodes : List Node) (hnodes : nodes ⊆ n.children)
          (fresh : Bool) : ∀ u ∈ s.usesAmong n q fresh nodes, u.hidden = true := by
        induction nodes generalizing fresh with
        | nil => nofun
        | cons c rest ihrest =>
          obtain ⟨hc, hrest⟩ := List.cons_subset.1 hnodes
          rw [usesAmong]
          exact List.forall_mem_append.2 ⟨ih c hc (hidden_part hq _ _), ihrest hrest _⟩
      rw [usesIn_of_not_own hown]
      exact hparts { p with position := p.position.settle s n } h _ (List.Subset.refl _) _

theorem seen_of_hidden (h : p.hidden = true) (n : Node) : s.seen (s.usesIn p n) = [] := by
  have hnone : (s.usesIn p n).filter (fun u => !u.hidden) = [] :=
    List.filter_eq_nil_iff.2 fun u hu => by simp [hidden_of_mem_usesIn h u hu]
  rw [seen, hnone]
  rfl

/-- Where no part is fresh, the parts can be taken one by one. -/
theorem usesAmong_eq (h : ∀ fresh role, p.part n fresh role = p.part n true role) (fresh : Bool)
    (nodes : List Node) :
    s.usesAmong n p fresh nodes = nodes.flatMap fun c => s.usesIn (p.part n true c.field) c := by
  induction nodes generalizing fresh with
  | nil => rfl
  | cons c rest ih => rw [usesAmong, ih, h, List.flatMap_cons]

/-! ## Roots -/

theorem rootOfField?_eq (f : Field) (nodes : List Node) :
    s.rootOfField? f nodes = (Node.withField? f nodes).bind s.rootOf? := by
  refine (eq_elim_withField? rfl (fun _ _ => by rw [rootOfField?]) nodes).trans ?_
  cases Node.withField? f nodes <;> rfl

theorem rootAttrOfField?_eq (f : Field) (nodes : List Node) :
    s.rootAttrOfField? f nodes = (Node.withField? f nodes).bind s.rootAttr? := by
  refine (eq_elim_withField? rfl (fun _ _ => by rw [rootAttrOfField?]) nodes).trans ?_
  cases Node.withField? f nodes <;> rfl

theorem probesOfField_eq (d : Bool) (f : Field) (nodes : List Node) :
    s.probesOfField d f nodes = (Node.withField? f nodes).elim [] (s.probes d) :=
  eq_elim_withField? rfl (fun _ _ => by rw [probesOfField]) nodes

theorem probesOfCallee_eq (d : Bool) (nodes : List Node) :
    s.probesOfCallee d nodes = (Node.withField? .function nodes).elim [] fun c =>
      if c.kind = .attr then s.probesOfMethod d c else s.probes d c :=
  eq_elim_withField? rfl (fun _ _ => by rw [probesOfCallee]) nodes

theorem probesOfIndex_eq (d : Bool) (f : Field) (nodes : List Node) :
    s.probesOfIndex d f nodes = (Node.withField? f nodes).elim [] fun c =>
      s.probesOfField d .subscript c.children :=
  eq_elim_withField? rfl (fun ⟨_, _, _, _, _, _⟩ _ => by rw [probesOfIndex]) nodes

theorem rootOf?_of_own (h : s.isOwnAttr n = true) : s.rootOf? n = some n := by
  obtain ⟨kind, field, text, row, flaw, children⟩ := n
  rw [rootOf?, if_pos h]

theorem rootOf?_of_attr (h : s.isOwnAttr n = false) (hkind : n.kind = .attr) :
    s.rootOf? n = (n.child? .object).bind s.rootOf? := by
  obtain ⟨kind, field, text, row, flaw, children⟩ := n
  obtain rfl : kind = .attr := hkind
  rw [rootOf?, if_neg (by simp [h]), if_pos rfl]
  exact rootOfField?_eq _ _

theorem rootOf?_of_subscript (hkind : n.kind = .subscript) :
    s.rootOf? n = (n.child? .value).bind s.rootOf? := by
  have hown : s.isOwnAttr n = false := by simp [isOwnAttr, hkind]
  obtain ⟨kind, field, text, row, flaw, children⟩ := n
  obtain rfl : kind = .subscript := hkind
  rw [rootOf?, if_neg (by simp [hown]), if_neg (by decide), if_pos rfl]
  exact rootOfField?_eq _ _

theorem rootOf?_of_ne (hattr : n.kind ≠ .attr) (hsubscript : n.kind ≠ .subscript) :
    s.rootOf? n = none := by
  have hown : s.isOwnAttr n = false := by simp [isOwnAttr, hattr]
  obtain ⟨kind, field, text, row, flaw, children⟩ := n
  rw [rootOf?, if_neg (by simp [hown]), if_neg hattr, if_neg hsubscript]

/-- A root is an attribute of the object in the chain. -/
theorem isOwnAttr_of_rootOf? {m : Node} (h : s.rootOf? n = some m) :
    s.isOwnAttr m = true ∧ m ∈ n.preorder := by
  induction n using Node.ofChildren with
  | h n ih =>
    have hbelow {f : Field} (h : (n.child? f).bind s.rootOf? = some m) :
        s.isOwnAttr m = true ∧ m ∈ n.preorder := by
      obtain ⟨c, hc, h⟩ := Option.bind_eq_some_iff.1 h
      have hmem := (mem_of_withField? hc).1
      exact (ih c hmem h).imp_right fun h => Node.preorder_subset hmem h
    cases hown : s.isOwnAttr n with
    | true =>
      rw [rootOf?_of_own hown] at h
      obtain rfl := Option.some.inj h
      exact ⟨hown, n.mem_preorder_self⟩
    | false =>
      by_cases hattr : n.kind = .attr
      · exact hbelow (rootOf?_of_attr hown hattr ▸ h)
      · by_cases hsubscript : n.kind = .subscript
        · exact hbelow (rootOf?_of_subscript hsubscript ▸ h)
        · rw [rootOf?_of_ne hattr hsubscript] at h
          nomatch h

/-- The root of a chain by name. -/
def named? (m : Node) : Option (Node × String) := do
  let attr ← m.child? .attr
  let object ← m.child? .object
  return (attr, object.text)

/-- The walk finds the attribute of the object that a chain is rooted in by its name and
receiver. -/
theorem rootAttr?_eq (hn : n.Everywhere Node.Formed) :
    s.rootAttr? n = (s.rootOf? n).bind named? := by
  induction n using Node.ofChildren with
  | h n ih =>
    by_cases hattr : n.kind = .attr
    · obtain ⟨object, hobject⟩ := (hn.here.attr hattr).1.exists_withField?
      obtain ⟨name, hname⟩ := (hn.here.attr hattr).2.1.exists_withField?
      have hroot : s.rootAttr? n =
          if s.isReceiver object then some (name, object.text) else s.rootAttr? object := by
        obtain ⟨kind, field, text, row, flaw, children⟩ := n
        obtain rfl : kind = .attr := hattr
        rw [rootAttr?]
        simp only [rootAttrOfField?_eq] at *
        rw [hobject, hname]
        rfl
      have hmem := (mem_of_withField? hobject).1
      cases hreceiver : s.isReceiver object with
      | true =>
        have hown : s.isOwnAttr n = true := by
          simp [isOwnAttr, hattr, Node.child?, hobject, hreceiver]
        rw [hroot, if_pos hreceiver, rootOf?_of_own hown]
        simp [named?, Node.child?, hobject, hname]
      | false =>
        have hown : s.isOwnAttr n = false := by
          simp [isOwnAttr, Node.child?, hobject, hreceiver]
        rw [hroot, if_neg (by simp [hreceiver]), ih object hmem (hn.child hmem),
          rootOf?_of_attr hown hattr, Node.child?, hobject]
        rfl
    · by_cases hsubscript : n.kind = .subscript
      · obtain ⟨value, hvalue⟩ := (hn.here.subscript hsubscript).1.exists_withField?
        have hmem := (mem_of_withField? hvalue).1
        have hroot : s.rootAttr? n = s.rootAttr? value := by
          obtain ⟨kind, field, text, row, flaw, children⟩ := n
          obtain rfl : kind = .subscript := hsubscript
          rw [rootAttr?, rootAttrOfField?_eq, hvalue]
          rfl
        rw [hroot, ih value hmem (hn.child hmem), rootOf?_of_subscript hsubscript, Node.child?,
          hvalue]
        rfl
      · rw [rootOf?_of_ne hattr hsubscript]
        obtain ⟨kind, field, text, row, flaw, children⟩ := n
        rw [rootAttr?.eq_def]
        dsimp only
        split <;> simp_all

/-! ## Chains -/

/-- What an expression does is what its uses come to, wherever it stands. -/
structure Traced (s : Scope) (n : Node) : Prop where
  evaluated : ∀ d, s.probes d n = s.seen (s.usesIn ⟨.evaluated, d, false⟩ n)
  callee : ∀ d, n.kind = .attr → s.probesOfMethod d n = s.seen (s.usesIn ⟨.callee, d, false⟩ n)
  chain : ∀ d manner outer m, s.rootOf? n = some m →
    s.seen (s.usesIn ⟨.chain manner outer, d, false⟩ n) =
      (s.useProbe? ⟨m, manner, d, false⟩).toList ++
        if outer && n.kind = .subscript then s.probesOfField d .subscript n.children else []

section Chains

variable {manner : Manner} {outer : Bool} {nodes : List Node}

/-- Of the indices of a chain, at most the first is looked at. -/
theorem seen_indices (hn : n.kind = .subscript) (h : ∀ c ∈ nodes, Traced s c)
    (hvalue : ∀ c ∈ nodes, c.field ≠ some .value) (hleaves : LeavesBut [.value, .subscript] nodes)
    (fresh : Bool) :
    s.seen (s.usesAmong n ⟨.chain manner outer, d, false⟩ fresh nodes) =
      if outer && fresh then s.probesOfField d .subscript nodes else [] := by
  induction nodes generalizing fresh with
  | nil => cases outer <;> cases fresh <;> rfl
  | cons c rest ih =>
    obtain ⟨hc, hrest⟩ := List.forall_mem_cons.1 h
    obtain ⟨hcvalue, hvalue⟩ := List.forall_mem_cons.1 hvalue
    obtain ⟨hcleaf, hleaves⟩ := List.forall_mem_cons.1 hleaves
    have hpart : Spot.part n fresh c.field ⟨.chain manner outer, d, false⟩ =
        ⟨.evaluated, d, !(outer && fresh)⟩ := by
      simp [Spot.part, hn, hcvalue]
    rw [usesAmong, seen_append, hpart, ih hrest hvalue hleaves]
    by_cases hfield : c.field = some .subscript
    · rw [probesOfField, if_pos hfield]
      cases houter : outer && fresh with
      | true => simp [hfield, hc.evaluated d]
      | false => simp [hfield, seen_of_hidden]
    · rw [probesOfField, if_neg hfield, usesIn_of_leaf (hcleaf (by simp [hcvalue, hfield]))]
      simp [hfield, seen]

/-- A subscript on a chain: first what it is rooted in, and then its indices. -/
theorem seen_subscript (hn : n.kind = .subscript) (h : ∀ c ∈ nodes, Traced s c)
    (honce : Once .value nodes) (hprecedes : Precedes .value .subscript nodes)
    (hleaves : LeavesBut [.value, .subscript] nodes) {v : Node}
    (hv : Node.withField? .value nodes = some v) :
    s.seen (s.usesAmong n ⟨.chain manner outer, d, false⟩ true nodes) =
      s.seen (s.usesIn ⟨.chain manner false, d, false⟩ v) ++
        if outer then s.probesOfField d .subscript nodes else [] := by
  induction nodes with
  | nil => nomatch hv
  | cons c rest ih =>
    obtain ⟨hc, hrest⟩ := List.forall_mem_cons.1 h
    obtain ⟨hbefore, hprecedes⟩ := List.pairwise_cons.1 hprecedes
    obtain ⟨hcleaf, hleaves⟩ := List.forall_mem_cons.1 hleaves
    rw [usesAmong, seen_append]
    by_cases hvalue : c.field = some .value
    · rw [withField?_cons_of_eq hvalue] at hv
      obtain rfl := Option.some.inj hv
      have hpart : Spot.part n true c.field ⟨.chain manner outer, d, false⟩ =
          ⟨.chain manner false, d, false⟩ := by
        simp [Spot.part, hn, hvalue]
      have hskip : s.probesOfField d .subscript (c :: rest) = s.probesOfField d .subscript rest := by
        rw [probesOfField, if_neg (by simp [hvalue])]
      rw [hpart, hskip, seen_indices hn hrest ((once_cons_of_eq hvalue).1 honce) hleaves]
      simp [hvalue]
    · rw [once_cons_of_ne hvalue] at honce
      rw [withField?_cons_of_ne hvalue] at hv
      by_cases hfield : c.field = some .subscript
      · obtain ⟨hmem, hvfield⟩ := mem_of_withField? hv
        exact absurd ⟨hfield, hvfield⟩ (hbefore v hmem)
      · rw [usesIn_of_leaf (hcleaf (by simp [hvalue, hfield])), probesOfField, if_neg hfield,
          ← ih hrest honce hprecedes hleaves hv]
        simp [hfield, seen]

end Chains

theorem seen_of_leaf {c : Node} (h : c.children = []) (q : Spot) : s.seen (s.usesIn q c) = [] := by
  rw [usesIn_of_leaf h]
  rfl

theorem seen_leaves {nodes : List Node} (h : ∀ c ∈ nodes, c.children = []) (fresh : Bool) :
    s.seen (s.usesAmong n p fresh nodes) = [] := by
  induction nodes generalizing fresh with
  | nil => rfl
  | cons c rest ih =>
    obtain ⟨hc, hrest⟩ := List.forall_mem_cons.1 h
    rw [usesAmong, usesIn_of_leaf hc, List.nil_append, ih hrest]

/-- Where one part alone is no leaf, the others add nothing. -/
theorem seen_sole {f : Field} {nodes : List Node} {q : Spot} {c : Node}
    (hpart : ∀ fresh, p.part n fresh (some f) = q) (honce : Once f nodes)
    (hleaves : LeavesBut [f] nodes) (hc : Node.withField? f nodes = some c) (fresh : Bool) :
    s.seen (s.usesAmong n p fresh nodes) = s.seen (s.usesIn q c) := by
  induction nodes generalizing fresh with
  | nil => nomatch hc
  | cons b rest ih =>
    obtain ⟨hb, hrest⟩ := List.forall_mem_cons.1 hleaves
    rw [usesAmong, seen_append]
    by_cases hfield : b.field = some f
    · rw [withField?_cons_of_eq hfield] at hc
      obtain rfl := Option.some.inj hc
      have hnone := (once_cons_of_eq hfield).1 honce
      rw [hfield, hpart, seen_leaves fun d hd => hrest d hd (by simpa using hnone d hd),
        List.append_nil]
    · rw [once_cons_of_ne hfield] at honce
      rw [withField?_cons_of_ne hfield] at hc
      rw [usesIn_of_leaf (hb (by simpa using hfield)), ih honce hrest hc]
      rfl

/-! ## Expressions -/

/-- A chain uses the attribute that it is rooted in, and if it is assigned or a method of it is
called also its own index. -/
theorem seen_chain (hn : n.Everywhere Node.Formed) (ih : ∀ c ∈ n.children, Traced s c)
    (d : Bool) (manner : Manner) (outer : Bool) {m : Node} (hm : s.rootOf? n = some m) :
    s.seen (s.usesIn ⟨.chain manner outer, d, false⟩ n) =
      (s.useProbe? ⟨m, manner, d, false⟩).toList ++
        if outer && n.kind = .subscript then s.probesOfField d .subscript n.children else [] := by
  cases hown : s.isOwnAttr n with
  | true =>
    rw [rootOf?_of_own hown] at hm
    obtain rfl := Option.some.inj hm
    rw [usesIn_of_own hown, seen_singleton rfl]
    simp [kind_of_isOwnAttr hown, Position.manner]
  | false =>
    rw [usesIn_of_not_own hown, Position.settle]
    by_cases hattr : n.kind = .attr
    · obtain ⟨honce, -, hleaves⟩ := hn.here.attr hattr
      rw [rootOf?_of_attr hown hattr] at hm
      obtain ⟨o, ho, hm⟩ := Option.bind_eq_some_iff.1 hm
      have hchain := (ih o (mem_of_withField? ho).1).chain d manner false m hm
      have hpart (fresh : Bool) : Spot.part n fresh (some .object) ⟨.chain manner outer, d, false⟩ =
          ⟨.chain manner false, d, false⟩ := by
        simp [Spot.part, hattr]
      rw [seen_sole hpart honce hleaves ho, hchain]
      simp [hattr]
    · by_cases hsubscript : n.kind = .subscript
      · obtain ⟨honce, hprecedes, hleaves⟩ := hn.here.subscript hsubscript
        rw [rootOf?_of_subscript hsubscript] at hm
        obtain ⟨v, hv, hm⟩ := Option.bind_eq_some_iff.1 hm
        have hchain := (ih v (mem_of_withField? hv).1).chain d manner false m hm
        rw [seen_subscript hsubscript ih honce hprecedes hleaves hv, hchain]
        simp [hsubscript]
      · rw [rootOf?_of_ne hattr hsubscript] at hm
        nomatch hm

/-- The name and the receiver of the root of a chain. -/
theorem exists_named {m : Node} (hn : n.Everywhere Node.Formed) (hm : s.rootOf? n = some m) :
    ∃ attr object, m.child? .attr = some attr ∧ m.child? .object = some object ∧
      s.isReceiver object = true ∧ s.rootAttr? n = some (attr, object.text) := by
  obtain ⟨hown, hmem⟩ := isOwnAttr_of_rootOf? hm
  obtain ⟨-, honce, -⟩ := (hn m hmem).attr (kind_of_isOwnAttr hown)
  obtain ⟨attr, hattr⟩ := honce.exists_withField?
  obtain ⟨object, hobject, hreceiver⟩ := exists_object_of_isOwnAttr hown
  refine ⟨attr, object, hattr, hobject, hreceiver, ?_⟩
  rw [rootAttr?_eq hn, hm, Option.bind_some, named?, Node.child?, hattr, hobject]
  rfl

theorem rootAttr?_eq_none (hn : n.Everywhere Node.Formed) (hm : s.rootOf? n = none) :
    s.rootAttr? n = none := by
  rw [rootAttr?_eq hn, hm]
  rfl

/-- A function that goes through the named siblings, where the others are tokens. -/
theorem eq_flatMap_seen {g : List Node → List Probe} {h : Node → List Probe} {nodes : List Node}
    (hnil : g [] = []) (hcons : ∀ c rest, g (c :: rest) = (if c.isNamed then h c else []) ++ g rest)
    (hnodes : ∀ c ∈ nodes, c.Everywhere Node.Formed ∧ h c = s.seen (s.usesIn p c)) :
    g nodes = nodes.flatMap fun c => s.seen (s.usesIn p c) := by
  induction nodes with
  | nil => exact hnil
  | cons c rest ih =>
    obtain ⟨⟨hformed, hc⟩, hrest⟩ := List.forall_mem_cons.1 hnodes
    rw [hcons, List.flatMap_cons, ih hrest]
    split
    · rw [hc]
    · rename_i hnamed
      rw [seen_of_leaf (hformed.here.token (.inl (by simpa using hnamed)))]

/-- The parts of an expression without a rule of its own are evaluated like the whole. -/
theorem seen_parts (hlambda : n.kind ≠ .lambda) (hcall : n.kind ≠ .call) :
    s.seen (s.usesAmong n ⟨.evaluated, d, false⟩ true n.children) =
      n.children.flatMap fun c => s.seen (s.usesIn ⟨.evaluated, d, false⟩ c) := by
  have hpart (fresh : Bool) (role : Option Field) :
      Spot.part n fresh role ⟨.evaluated, d, false⟩ = ⟨.evaluated, d, false⟩ := by
    simp [Spot.part, hlambda, hcall]
  rw [usesAmong_eq fun fresh role => (hpart fresh role).trans (hpart true role).symm, seen_flatMap]
  simp only [hpart]

theorem probes_of_attr (hattr : n.kind = .attr) (d : Bool) :
    s.probes d n =
      match s.rootAttr? n with
      | some (attr, receiver) => (s.probe? d attr.text receiver .read n.line false none).toList
      | none => s.probesAmong d n.children := by
  obtain ⟨kind, field, text, row, flaw, children⟩ := n
  obtain rfl : kind = .attr := hattr
  rfl

theorem probes_of_lambda (hlambda : n.kind = .lambda) (d : Bool) :
    s.probes d n = s.probesOfField true .body n.children := by
  obtain ⟨kind, field, text, row, flaw, children⟩ := n
  obtain rfl : kind = .lambda := hlambda
  rfl

theorem probes_of_call (hcall : n.kind = .call) (d : Bool) :
    s.probes d n = s.probesOfCallee d n.children ++ s.probesOfField d .arguments n.children := by
  obtain ⟨kind, field, text, row, flaw, children⟩ := n
  obtain rfl : kind = .call := hcall
  rfl

/-- An expression without a rule of its own does what its parts do. A token has no parts. -/
theorem probes_of_other (hattr : n.kind ≠ .attr) (hlambda : n.kind ≠ .lambda)
    (hcall : n.kind ≠ .call) (htoken : n.kind.isToken = true → n.children = []) (d : Bool) :
    s.probes d n = s.probesAmong d n.children := by
  obtain ⟨kind, field, text, row, flaw, children⟩ := n
  rw [probes.eq_def]
  dsimp only
  split
  · exact absurd rfl hlambda
  · exact absurd rfl hcall
  · exact absurd rfl hattr
  iterate 4
    have hnil : children = [] := htoken rfl
    rw [hnil]
    rfl
  · rfl

/-- Of a lambda only the body is looked at, and it is detached. -/
theorem seen_lambda (hn : n.Everywhere Node.Formed) (ih : ∀ c ∈ n.children, Traced s c)
    (hlambda : n.kind = .lambda) :
    s.seen (s.usesAmong n ⟨.evaluated, d, false⟩ true n.children) =
      s.probesOfField true .body n.children := by
  obtain ⟨body, hbody⟩ := (hn.here.lambda hlambda).exists_withField?
  have hpart (fresh : Bool) (role : Option Field) :
      Spot.part n fresh role ⟨.evaluated, d, false⟩ = ⟨.evaluated, true, role ≠ some .body⟩ := by
    simp [Spot.part, hlambda]
  rw [usesAmong_eq fun fresh role => (hpart fresh role).trans (hpart true role).symm, seen_flatMap]
  simp only [hpart]
  obtain ⟨hmem, hfield⟩ := mem_of_withField? hbody
  rw [(hn.here.lambda hlambda).flatMap_eq
    (fun c _ hne => seen_of_hidden (by simpa using hne) c) hbody, probesOfField_eq, hbody]
  simp [hfield, (ih body hmem).evaluated]

/-- What is called and is no attribute is evaluated. -/
theorem usesIn_callee_of_ne {c : Node} (h : c.kind ≠ .attr) :
    s.usesIn ⟨.callee, d, false⟩ c = s.usesIn ⟨.evaluated, d, false⟩ c := by
  have hown : s.isOwnAttr c = false := by simp [isOwnAttr, h]
  rw [usesIn_of_not_own hown, usesIn_of_not_own hown]
  simp [Position.settle, h]

/-- A call does what its callee does, and then what its arguments do. -/
theorem seen_call (hn : n.Everywhere Node.Formed) (ih : ∀ c ∈ n.children, Traced s c)
    (hcall : n.kind = .call) :
    s.seen (s.usesAmong n ⟨.evaluated, d, false⟩ true n.children) =
      s.probesOfCallee d n.children ++ s.probesOfField d .arguments n.children := by
  obtain ⟨honce, honce', hprecedes, hleaves⟩ := hn.here.call hcall
  obtain ⟨f, hf⟩ := honce.exists_withField?
  obtain ⟨a, ha⟩ := honce'.exists_withField?
  obtain ⟨hfmem, hffield⟩ := mem_of_withField? hf
  obtain ⟨hamem, hafield⟩ := mem_of_withField? ha
  have hpart (fresh : Bool) (role : Option Field) :
      Spot.part n fresh role ⟨.evaluated, d, false⟩ =
        ⟨if role = some .function then .callee else .evaluated, d, false⟩ := by
    by_cases hrole : role = some .function <;> simp [Spot.part, hcall, hrole]
  rw [usesAmong_eq fun fresh role => (hpart fresh role).trans (hpart true role).symm, seen_flatMap]
  simp only [hpart]
  rw [flatMap_eq_of_precedes honce honce' (by decide) hprecedes
    (fun c hc h h' => seen_of_leaf (hleaves c hc (by simp [h, h'])) _) hf ha]
  rw [probesOfCallee_eq, probesOfField_eq, hf, ha]
  simp only [hffield, hafield, if_true, Option.elim_some, (ih a hamem).evaluated]
  congr 1
  split
  · rw [(ih f hfmem).callee d ‹_›]
  · rw [usesIn_callee_of_ne ‹_›, (ih f hfmem).evaluated d]

/-- An expression that is evaluated does what its uses say, if its parts do so in every position. -/
theorem traced_evaluated (hn : n.Everywhere Node.Formed) (ih : ∀ c ∈ n.children, Traced s c)
    (d : Bool) : s.probes d n = s.seen (s.usesIn ⟨.evaluated, d, false⟩ n) := by
  have hchildren : s.probesAmong d n.children =
      n.children.flatMap fun c => s.seen (s.usesIn ⟨.evaluated, d, false⟩ c) :=
    eq_flatMap_seen rfl (fun _ _ => by rw [probesAmong]) fun c hc =>
      ⟨hn.child hc, (ih c hc).evaluated d⟩
  cases hown : s.isOwnAttr n with
  | true =>
    have hattr := kind_of_isOwnAttr hown
    obtain ⟨attr, object, hname, hobject, -, hroot⟩ := exists_named hn (rootOf?_of_own hown)
    rw [probes_of_attr hattr, hroot, usesIn_of_own hown, seen_singleton rfl]
    simp [useProbe?, hname, hobject, Position.manner]
  | false =>
    by_cases hattr : n.kind = .attr
    · cases hm : s.rootOf? n with
      | none =>
        have hsettle : Position.settle s n .evaluated = .evaluated := by
          simp [Position.settle, isRooted, hm]
        rw [probes_of_attr hattr, rootAttr?_eq_none hn hm, usesIn_of_not_own hown, hsettle,
          seen_parts (by simp [hattr]) (by simp [hattr]), hchildren]
      | some m =>
        obtain ⟨attr, object, hname, hobject, -, hroot⟩ := exists_named hn hm
        have hsettle : Position.settle s n .evaluated = .chain (.read n.line) false := by
          simp [Position.settle, isRooted, hm, hattr]
        have hchain := seen_chain hn ih d (.read n.line) false hm
        rw [usesIn_of_not_own hown, Position.settle] at hchain
        rw [probes_of_attr hattr, hroot, usesIn_of_not_own hown, hsettle, hchain]
        simp [useProbe?, hname, hobject]
    · have hsettle : Position.settle s n .evaluated = .evaluated := by
        simp [Position.settle, hattr]
      rw [usesIn_of_not_own hown, hsettle]
      by_cases hlambda : n.kind = .lambda
      · rw [probes_of_lambda hlambda, seen_lambda hn ih hlambda]
      · by_cases hcall : n.kind = .call
        · rw [probes_of_call hcall, seen_call hn ih hcall]
        · rw [probes_of_other hattr hlambda hcall fun h => hn.here.token (.inr h),
            seen_parts hlambda hcall, hchildren]

theorem probesOfMethod_eq {o name : Node} (ho : n.child? .object = some o)
    (hname : n.child? .attr = some name) (d : Bool) :
    s.probesOfMethod d n =
      if s.isReceiver o then
        if s.isOwnMethod name.text then [.ownCall d name.text n.line]
        else (s.probe? d name.text o.text .read n.line false none).toList
      else
        match s.rootAttr? o with
        | none => s.probes d o
        | some (attr, receiver) =>
          (if mutates name.text then
              s.probe? d attr.text receiver .write n.line false (some name.text)
            else s.probe? d attr.text receiver .read n.line false none).toList ++
            if o.kind = .subscript then s.probesOfField d .subscript o.children else [] := by
  obtain ⟨kind, field, text, row, flaw, children⟩ := n
  rw [Node.child?] at ho hname
  have hfield : s.probesOfField d .object children = s.probes d o := by
    rw [probesOfField_eq, ho]
    rfl
  have hindex : s.probesOfIndex d .object children = s.probesOfField d .subscript o.children := by
    rw [probesOfIndex_eq, ho]
    rfl
  rw [probesOfMethod, ho, hname]
  cases hroot : s.rootAttr? o <;> simp only [hroot, hfield, hindex]

/-- So does the method that is called, which may be one of the object or change an attribute of
it. -/
theorem traced_callee (hn : n.Everywhere Node.Formed) (ih : ∀ c ∈ n.children, Traced s c) (d : Bool)
    (hattr : n.kind = .attr) :
    s.probesOfMethod d n = s.seen (s.usesIn ⟨.callee, d, false⟩ n) := by
  obtain ⟨honce, honce', hleaves⟩ := hn.here.attr hattr
  obtain ⟨o, ho⟩ := honce.exists_withField?
  obtain ⟨name, hname⟩ := honce'.exists_withField?
  have hmem := (mem_of_withField? ho).1
  rw [probesOfMethod_eq ho hname]
  cases hreceiver : s.isReceiver o with
  | true =>
    have hown : s.isOwnAttr n = true := by simp [isOwnAttr, hattr, Node.child?, ho, hreceiver]
    rw [if_pos rfl, usesIn_of_own hown, seen_singleton rfl]
    simp only [useProbe?, Node.child?, hname, ho, Position.manner, bind, Option.bind]
    split <;> rfl
  | false =>
    have hown : s.isOwnAttr n = false := by simp [isOwnAttr, Node.child?, ho, hreceiver]
    have hroot : s.rootOf? n = s.rootOf? o := by
      rw [rootOf?_of_attr hown hattr, Node.child?, ho]
      rfl
    rw [if_neg (by simp), usesIn_of_not_own hown]
    cases hm : s.rootOf? o with
    | none =>
      have hsettle : Position.settle s n .callee = .evaluated := by
        simp [Position.settle, isRooted, hroot, hm]
      have hpart (fresh : Bool) : Spot.part n fresh (some .object) ⟨.evaluated, d, false⟩ =
          ⟨.evaluated, d, false⟩ := by
        simp [Spot.part, hattr]
      rw [rootAttr?_eq_none (hn.child hmem) hm, hsettle, seen_sole hpart honce hleaves ho]
      exact (ih o hmem).evaluated d
    | some m =>
      obtain ⟨attr, object, hattr', hobject, -, hrootAttr⟩ := exists_named (hn.child hmem) hm
      have hsettle : Position.settle s n .callee = .callee := by
        simp [Position.settle, isRooted, hroot, hm, hattr]
      have hpart (fresh : Bool) : Spot.part n fresh (some .object) ⟨.callee, d, false⟩ =
          ⟨.chain (.method name.text n.line) true, d, false⟩ := by
        simp [Spot.part, Node.child?, hname]
      rw [hrootAttr, hsettle, seen_sole hpart honce hleaves ho,
        (ih o hmem).chain d (.method name.text n.line) true m hm]
      simp [useProbe?, hattr', hobject]

/-- **What an expression does is what its uses say**, in each position that the walk treats on its
own. The induction is on the tree. -/
theorem traced (hn : n.Everywhere Node.Formed) : Traced s n := by
  induction n using Node.ofChildren with
  | h n ih =>
    have ih (c : Node) (hc : c ∈ n.children) : Traced s c := ih c hc (hn.child hc)
    exact ⟨traced_evaluated hn ih, traced_callee hn ih, fun d manner outer m hm =>
      seen_chain hn ih d manner outer hm⟩

/-! ## Targets -/

/-- A chain that is assigned writes the attribute that it is rooted in, and reads its own index. -/
theorem targetProbes_of_chain (h : n.kind = .attr ∨ n.kind = .subscript) (rmw : Bool) :
    s.targetProbes rmw n =
      match s.rootAttr? n with
      | none => s.probes false n
      | some (attr, receiver) =>
        (s.probe? false attr.text receiver .write n.line rmw
          (if s.isOwnAttr n then none else some "[]")).toList ++
          if n.kind = .subscript then s.probesOfField false .subscript n.children else [] := by
  obtain ⟨kind, field, text, row, flaw, children⟩ := n
  rw [targetProbes, if_pos h]
  rfl

theorem targetProbes_of_other (h : ¬(n.kind = .attr ∨ n.kind = .subscript))
    (hcompound : isCompoundTarget n.kind = false) (rmw : Bool) :
    s.targetProbes rmw n = s.probes false n := by
  obtain ⟨kind, field, text, row, flaw, children⟩ := n
  rw [targetProbes, if_neg h, if_neg (by simpa using hcompound)]
  split
  · rename_i hkind
    obtain rfl : kind = .identifier := hkind
    rfl
  · rfl

/-- What is no target of its own is evaluated. -/
theorem usesIn_target_of_none (hm : s.rootOf? n = none) (hcompound : isCompoundTarget n.kind = false)
    (rmw : Bool) :
    s.usesIn ⟨.target rmw, false, false⟩ n = s.usesIn ⟨.evaluated, false, false⟩ n := by
  have hown : s.isOwnAttr n = false := by
    rw [Bool.eq_false_iff]
    intro hown
    simp [rootOf?_of_own hown] at hm
  rw [usesIn_of_not_own hown, usesIn_of_not_own hown]
  simp [Position.settle, isRooted, hm, hcompound]

/-- **What an assignment does to its target is what the uses say.** A compound target is assigned
part by part. -/
theorem targetProbes_eq (hn : n.Everywhere Node.Formed) (rmw : Bool) :
    s.targetProbes rmw n = s.seen (s.usesIn ⟨.target rmw, false, false⟩ n) := by
  induction n using Node.ofChildren with
  | h n ih =>
    have htraced : Traced s n := traced hn
    by_cases hchain : n.kind = .attr ∨ n.kind = .subscript
    · have hcompound : isCompoundTarget n.kind = false := by
        rcases hchain with h | h <;> rw [h] <;> rfl
      rw [targetProbes_of_chain hchain]
      cases hm : s.rootOf? n with
      | none =>
        rw [rootAttr?_eq_none hn hm, usesIn_target_of_none hm hcompound]
        exact htraced.evaluated false
      | some m =>
        obtain ⟨attr, object, hattr, hobject, -, hroot⟩ := exists_named hn hm
        rw [hroot]
        cases hown : s.isOwnAttr n with
        | true =>
          rw [rootOf?_of_own hown] at hm
          obtain rfl := Option.some.inj hm
          rw [usesIn_of_own hown, seen_singleton rfl]
          simp [useProbe?, hattr, hobject, Position.manner, kind_of_isOwnAttr hown]
        | false =>
          have hsettle : Position.settle s n (.target rmw) =
              .chain (.assign rmw false n.line) true := by
            simp [Position.settle, isRooted, hm]
          have hseen := htraced.chain false (.assign rmw false n.line) true m hm
          rw [usesIn_of_not_own hown, Position.settle] at hseen
          rw [usesIn_of_not_own hown, hsettle, hseen]
          simp [useProbe?, hattr, hobject]
    · have hm : s.rootOf? n = none :=
        rootOf?_of_ne (fun h => hchain (.inl h)) fun h => hchain (.inr h)
      cases hcompound : isCompoundTarget n.kind with
      | false =>
        rw [targetProbes_of_other hchain hcompound, usesIn_target_of_none hm hcompound]
        exact htraced.evaluated false
      | true =>
        have hown : s.isOwnAttr n = false := by
          have hattr : n.kind ≠ .attr := fun h => hchain (.inl h)
          simp [isOwnAttr, hattr]
        have hsettle : Position.settle s n (.target rmw) = .target rmw := by
          simp [Position.settle, isRooted, hm, hcompound]
        have hparts : s.targetProbes rmw n = s.targetProbesAmong rmw n.children := by
          obtain ⟨kind, field, text, row, flaw, children⟩ := n
          rw [targetProbes, if_neg hchain, if_pos hcompound]
        rw [hparts, usesIn_of_not_own hown, hsettle, usesAmong_eq fun _ _ => rfl, seen_flatMap]
        exact eq_flatMap_seen rfl (fun _ _ => by rw [targetProbesAmong]) fun c hc =>
          ⟨hn.child hc, ih c hc (hn.child hc)⟩

end Scope

end Interlock
