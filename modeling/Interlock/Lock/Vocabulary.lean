import Interlock.Text.Dotted

/-!
# Names that the analyses know

The names of constructors, methods, decorators and modules that matter for concurrency. A callee is
judged by its last segment, so that `threading.Lock` and `Lock` are the same constructor.
-/

namespace Interlock.Lock

/-- Callees that make a lock. -/
def constructors : List String :=
  ["Lock", "RLock", "Semaphore", "BoundedSemaphore", "Condition", "allocate_lock"]

/-- Callees that make a container whose operations are atomic. -/
def threadSafeConstructors : List String :=
  ["Queue", "SimpleQueue", "LifoQueue", "PriorityQueue", "JoinableQueue", "Event", "Barrier",
    "deque", "count"]

/-- Methods that compare and swap, or otherwise update in one step. -/
def atomicMethods : List String :=
  ["compare_and_swap", "compare_and_set", "compare_exchange", "cas", "fetch_add", "fetch_sub",
    "get_and_set", "get_and_add", "get_and_increment", "increment_and_get", "add_and_get",
    "atomic_add"]

/-- Methods of a container that change it. -/
def mutatingMethods : List String :=
  ["append", "appendleft", "extend", "extendleft", "insert", "remove", "pop", "popleft", "popitem",
    "clear", "update", "add", "discard", "setdefault", "sort", "reverse", "put", "put_nowait", "set",
    "rotate"]

/-- Decorators that run a method under a lock. -/
def decorators : List String := ["synchronized", "synchronize", "locked", "with_lock"]

/-- Modules whose import means that a file takes part in concurrency. -/
def concurrencyModules : List String :=
  ["threading", "_thread", "concurrent", "multiprocessing", "asyncio", "queue", "gevent",
    "eventlet"]

/-- Methods that run before an instance can be shared. -/
def constructorMethods : List String :=
  ["__init__", "__new__", "__post_init__", "__init_subclass__", "__set_name__", "setUp",
    "setup_method"]

/-- Whether a callee makes a lock. -/
def isConstructor (callee : String) : Bool := constructors.contains (Text.leaf callee)

/-- The type of thread-safe container that a callee makes. Every name that starts with `Atomic`
counts as one. -/
def threadSafeType? (callee : String) : Option String :=
  let name := Text.leaf callee
  if threadSafeConstructors.contains name || "Atomic".toList.isPrefixOf name.toList then some name
  else none

end Interlock.Lock
