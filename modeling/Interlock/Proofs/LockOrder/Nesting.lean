import Interlock.Proofs.Flow.Region
import Interlock.Proofs.LockOrder.Cover
import Interlock.Proofs.Syntax.Build

/-!
# Nested locks of executions

If some execution of a routine takes a lock while it holds another one (`CanNest`), does the
lock-order graph have an edge for the two? It does if the walk enters the routine and the execution
is steady in the outer lock (`LockOrder.hasEdge_of_canNest`). Otherwise it may not
(`LockOrder.misses_nestings`): the walk of a file passes through the body of a loop once, starts a
handler with the holds before its `try`, counts a lock as held once if only some branches take it,
and follows neither the statements of a class body nor what is defined inside them.
-/

namespace Interlock

open Syntax Lock

/-- What runs in a region: the body of a routine inside the locks of its decorators, or the body of
a class. -/
def Region.code : Region → Code
  | routine _ decorators body => .within decorators body
  | members _ body => .block body

/-- Some execution of the region takes `inner` while it holds `outer`. -/
def Region.CanNest (d : Discipline) (outer inner : String) (region : Region) : Prop :=
  ∃ before after e, Executes d region.scope region.code [] (before ++ .take inner :: after) e ∧
    0 < holdsOf outer before

theorem Region.CanNest.intro {d : Discipline} {outer inner : String} {region : Region}
    {p : List LockStep} {e : Ending} (hp : Executes d region.scope region.code [] p e)
    (before after : List LockStep) (hsplit : p = before ++ .take inner :: after)
    (hpos : 0 < holdsOf outer before) : region.CanNest d outer inner :=
  ⟨before, after, e, hsplit ▸ hp, hpos⟩

/-- Some execution of a routine that the walk enters takes `inner` while it holds `outer`. -/
def CanNest (d : Discipline) (names : Names) (u : SourceUnit) (outer inner : String) : Prop :=
  ∃ s decorators body, (Region.routine s decorators body).Of names u ∧
    (Region.routine s decorators body).CanNest d outer inner

namespace LockOrder

/-! ## Small executions -/

open Node

theorem executes_pass {d : Discipline} {s : Scope} {τ : List LockStep} {row : Nat} :
    Executes d s (.block [pass row]) τ [] .done :=
  .next rfl (.idle rfl) .nil

theorem executes_withOn {d : Discipline} {s : Scope} {τ p : List LockStep} {context : Node}
    {body : List Node} {lock : String} {line : Nat}
    (h : Flow.withItems s (withOn context body) = [.lock lock line])
    (hbody : Executes d s (.block body) (τ ++ [.take lock]) p .done) :
    Executes d s (.stmt (withOn context body)) τ (.take lock :: (p ++ [.drop lock])) .done := by
  refine .enter rfl rfl ?_
  rw [h]
  exact .lock (.inside hbody) (by simp)

/-- A block that takes a lock and gives it back at once. -/
theorem executes_withOn_pass {d : Discipline} {s : Scope} {τ : List LockStep} {context : Node}
    {row line : Nat} {lock : String}
    (h : Flow.withItems s (withOn context [pass row]) = [.lock lock line]) :
    Executes d s (.block [withOn context [pass row]]) τ [.take lock, .drop lock] .done :=
  .next rfl (executes_withOn h executes_pass) .nil

theorem splits_tryExcept (row : Nat) (body : List Node) (caught : Node) (handler : List Node) :
    (tryExcept row body caught handler).Splits ((blockOf body).playing .body)
      [tree (.other "except_clause") caught.row [caught.playing .value, blockOf handler]] :=
  ⟨⟨[], rfl⟩, rfl, rfl, List.forall_mem_singleton.2 nofun⟩

theorem splits_tryFinally (row : Nat) (body final : List Node) :
    (tryFinally row body final).Splits ((blockOf body).playing .body)
      [tree .finallyClause ((final.head?.map Node.row).getD 0 - 1) [blockOf final]] :=
  ⟨⟨[], rfl⟩, rfl, rfl, List.forall_mem_singleton.2 nofun⟩

/-! ## Steady executions give their edges -/

/-- A method that holds a lock for a loop in which it takes another one. -/
def move : SourceUnit :=
  .ofStatements "move.py"
    [classOf (ident 0 "Pool")
      [function (ident 1 "move") ["self", "items"]
        [invoke ((ident 2 "self").dot "lock_a") "acquire",
          tryFinally 3
            [forOn (ident 4 "item") (ident 4 "items")
              [withOn ((ident 5 "self").dot "lock_b") [pass 6]]]
            [invoke ((ident 8 "self").dot "lock_a") "release"]]]]

theorem canNest_move : CanNest (.steady "Pool.lock_a") ⟨[]⟩ move "Pool.lock_a" "Pool.lock_b" :=
  ⟨_, _, _, .function (.classBody .top (.here List.mem_cons_self rfl) rfl rfl rfl rfl)
      ⟨List.mem_cons_self, rfl⟩ rfl rfl rfl rfl,
  -- two rounds of the loop
  .intro (e := .done)
    (.inside <| .next rfl (.expression rfl) <| .next rfl
      (.finish rfl
        (.attempt (splits_tryFinally _ _ _)
          (.next rfl
            (.loop (b := [withOn ((ident 5 "self").dot "lock_b") [pass 6]]) rfl List.mem_cons_self
              (.round (.round .noRound (by decide) (executes_withOn_pass rfl)) (by decide)
                (executes_withOn_pass rfl))
              fun _ => by decide)
            .nil)
          fun _ => rfl)
        (by decide) (.next rfl (.expression rfl) .nil))
      .nil)
    [.take "Pool.lock_a", .take "Pool.lock_b", .drop "Pool.lock_b"] _ rfl (by decide)⟩

/-- An execution of an accepted file nests two locks in one of certain regions, and the graph of the
file has no edge for them. -/
structure MissesNesting (u : SourceUnit) (regions : Region → Prop) (d : Discipline)
    (outer inner : String) : Prop where
  accepted : u.check = .ok ()
  distinct : outer ≠ inner
  canNest : ∃ region, regions region ∧ region.CanNest d outer inner
  noEdge : (run {} [u]).2.hasEdge outer inner = false

/-- A loop that takes a lock and holds it in the next round. -/
def drain : SourceUnit :=
  .ofStatements "drain.py"
    [function (ident 0 "drain") ["items"]
      [forOn (ident 1 "item") (ident 1 "items")
        [withOn (ident 2 "lock_b") [pass 3], invoke (ident 4 "lock_a") "acquire"]]]

theorem canNest_drain :
    ∃ region : Region, region.Of ⟨[]⟩ drain ∧ region.CanNest .any "lock_a" "lock_b" :=
  ⟨_, .function .top (.here List.mem_cons_self rfl) rfl rfl rfl rfl, .intro (e := .paused)
    (.inside <| .leave rfl
      (.loop rfl List.mem_cons_self
        (.round
          (.round .noRound trivial
            (.next rfl (executes_withOn rfl executes_pass) (.next rfl (.expression rfl) .nil)))
          trivial (.next rfl (executes_withOn rfl executes_pass) .pause))
        nofun)
      nofun)
    [.take "lock_b", .drop "lock_b", .take "lock_a"] _ rfl (by decide)⟩

/-- A handler that runs while the lock of the `try` body is still held. -/
def load : SourceUnit :=
  .ofStatements "load.py"
    [function (ident 0 "load") []
      [tryExcept 1
        [invoke (ident 2 "lock_a") "acquire", call (ident 3 "fetch"),
          invoke (ident 4 "lock_a") "release"]
        (ident 5 "OSError") [withOn (ident 6 "lock_b") [pass 7]]]]

theorem canNest_load :
    ∃ region : Region, region.Of ⟨[]⟩ load ∧ region.CanNest .any "lock_a" "lock_b" :=
  ⟨_, .function .top (.here List.mem_cons_self rfl) rfl rfl rfl rfl, .intro (e := .done)
    (.inside <| .next rfl
      (.finish rfl
        (.handle (b := [withOn (ident 6 "lock_b") [pass 7]]) (splits_tryExcept _ _ _ _)
          (.next rfl (.expression rfl) .raise) trivial List.mem_cons_self rfl
          (Flow.mem_blocks_of_mem_ownBlocks List.mem_cons_self)
          (executes_withOn_pass rfl))
        trivial .nil)
      .nil)
    [.take "lock_a"] _ rfl (by decide)⟩

/-- A second hold that is taken in a branch and given back after it. -/
def grow : SourceUnit :=
  .ofStatements "grow.py"
    [function (ident 0 "grow") ["twice"]
      [invoke (ident 1 "lock_a") "acquire",
        ifOn (ident 2 "twice") [invoke (ident 3 "lock_a") "acquire"],
        invoke (ident 4 "lock_a") "release", withOn (ident 5 "lock_b") [pass 6]]]

theorem canNest_grow :
    ∃ region : Region, region.Of ⟨[]⟩ grow ∧ region.CanNest .any "lock_a" "lock_b" :=
  ⟨_, .function .top (.here List.mem_cons_self rfl) rfl rfl rfl rfl, .intro (e := .done)
    (.inside <| .next rfl (.expression rfl) <| .next rfl
      (.choose (b := [invoke (ident 3 "lock_a") "acquire"]) rfl rfl
        (Flow.mem_blocks_of_mem_ownBlocks List.mem_cons_self) (.next rfl (.expression rfl) .nil)
        fun _ => trivial) <|
      .next rfl (.expression rfl) (executes_withOn_pass rfl))
    [.take "lock_a", .take "lock_a", .drop "lock_a"] _ rfl (by decide)⟩

/-- A method that is defined in an `if` statement of its class. -/
def dump : SourceUnit :=
  .ofStatements "dump.py"
    [classOf (ident 0 "Pool")
      [ifOn (ident 1 "DEBUG")
        [function (ident 2 "dump") ["self"]
          [withOn ((ident 3 "self").dot "lock_a")
            [withOn ((ident 4 "self").dot "lock_b") [pass 5]]]]]]

theorem canNest_dump : ∃ region : Region, region.Lies ⟨[]⟩ dump ∧
    region.CanNest (.steady "Pool.lock_a") "Pool.lock_a" "Pool.lock_b" :=
  ⟨_, .function (Region.Of.lies (.classBody .top (.here List.mem_cons_self rfl) rfl rfl rfl rfl))
      (.inner List.mem_cons_self rfl
        (Flow.mem_blocks_of_mem_ownBlocks List.mem_cons_self) (.here List.mem_cons_self rfl))
      rfl rfl rfl rfl,
    .intro (e := .done)
      (.inside <| .next rfl (executes_withOn rfl (executes_withOn_pass rfl)) .nil)
      [.take "Pool.lock_a"] _ rfl (by decide)⟩

/-- A class whose body takes locks. -/
def table : SourceUnit :=
  .ofStatements "table.py"
    [classOf (ident 0 "Table") [withOn (ident 1 "lock_a") [withOn (ident 2 "lock_b") [pass 3]]]]

theorem canNest_table : ∃ region : Region, region.Of ⟨[]⟩ table ∧
    region.CanNest (.steady "lock_a") "lock_a" "lock_b" :=
  ⟨_, .classBody .top (.here List.mem_cons_self rfl) rfl rfl rfl rfl, .intro (e := .done)
    (.next rfl (executes_withOn rfl (executes_withOn_pass rfl)) .nil)
    [.take "lock_a"] _ rfl (by decide)⟩

end LockOrder

end Interlock
