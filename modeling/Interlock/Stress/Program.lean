/-!
# Calls

A call of a stress target is a program that works on one shared counter. It is given as a tree of
atomic steps (`Call`): what another worker does can come between any two of them, but not inside
one.

`Call.alone` runs a call with nobody else about.
-/

namespace Interlock.Stress

/-- How a call ends. -/
inductive CallResult where
  | ok
  /-- The call reports an error. -/
  | failed (message : String)
  /-- The call breaks down, with or without a message. -/
  | panicked (message : Option String)
  deriving DecidableEq, Repr, Inhabited

/-- The message of a call that does not end well. -/
def CallResult.failure? : CallResult → Option String
  | ok => none
  | failed message => some message
  | panicked message => some ("panicked: " ++ message.getD "Unknown panic")

/-- A call as a tree of atomic steps. -/
inductive Call where
  | done (result : CallResult)
  /-- Read the counter. -/
  | get (next : UInt64 → Call)
  /-- Write the counter. -/
  | set (value : UInt64) (next : Call)
  /-- Add to the counter in one step and go on with its old value. -/
  | fetchAdd (n : UInt64) (next : UInt64 → Call)
  /-- Take the mutex, as soon as it is free. -/
  | lock (next : Call)
  /-- Give the mutex back. -/
  | unlock (next : Call)
  /-- Do nothing for some milliseconds. -/
  | sleep (millis : Nat) (next : Call)
  deriving Inhabited

/-- What the workers share. -/
structure Memory where
  counter : UInt64 := 0
  deriving DecidableEq, Repr, Inhabited

/-- Runs a call with nobody else about. -/
def Call.alone (m : Memory) : Call → Memory × CallResult
  | done r => (m, r)
  | get k => (k m.counter).alone m
  | set v k => k.alone { m with counter := v }
  | fetchAdd n k => (k m.counter).alone { m with counter := m.counter + n }
  | lock k => k.alone m
  | unlock k => k.alone m
  | sleep _ k => k.alone m

end Interlock.Stress
