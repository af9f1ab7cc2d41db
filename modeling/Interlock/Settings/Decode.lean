import Interlock.Data.Record
import Interlock.Settings.Basic

/-!
# Reading settings

`ofValue?` reads each group of settings. Whatever is left out keeps its default.
-/

namespace Interlock

open Data

/-- Reads a list of texts. -/
def textList? : Value → Option (List String) := Value.list? Value.text?

def RaceSettings.ofValue? (strict : Strictness) (v : Value) : Option RaceSettings := do
  let [threshold, critical, names, concurrent] ←
    v.slots? strict ["frequency_threshold", "critical_data", "lock_names", "assume_concurrent"] |
      none
  let fallback : RaceSettings := {}
  return {
    frequencyThreshold := ← threshold.orDefault fallback.frequencyThreshold Value.word?
    criticalData := ← critical.orDefault fallback.criticalData textList?
    lockNames := ← names.orDefault fallback.lockNames textList?
    assumeConcurrent := ← concurrent.orDefault fallback.assumeConcurrent Value.bool? }

def LockOrderSettings.ofValue? (strict : Strictness) (v : Value) : Option LockOrderSettings := do
  let [names, follow] ← v.slots? strict ["lock_names", "follow_self_calls"] | none
  let fallback : LockOrderSettings := {}
  return {
    lockNames := ← names.orDefault fallback.lockNames textList?
    followOwnCalls := ← follow.orDefault fallback.followOwnCalls Value.bool? }

def StressSettings.ofValue? (strict : Strictness) (v : Value) : Option StressSettings := do
  let [threads, iterations, timeout] ←
    v.slots? strict ["threads", "iterations", "timeout_secs"] | none
  let fallback : StressSettings := {}
  return {
    threads := ← threads.orDefault fallback.threads Value.word?
    iterations := ← iterations.orDefault fallback.iterations Value.word?
    timeoutSecs := ← timeout.orDefault fallback.timeoutSecs Value.float? }

def ExcludeSettings.ofValue? (strict : Strictness) (v : Value) : Option ExcludeSettings := do
  let [paths, skip] ← v.slots? strict ["paths", "skip_defaults"] | none
  let fallback : ExcludeSettings := {}
  return {
    paths := ← paths.orDefault fallback.paths textList?
    skipDefaults := ← skip.orDefault fallback.skipDefaults Value.bool? }

def DisplaySettings.ofValue? (strict : Strictness) (v : Value) : Option DisplaySettings := do
  let [format, severity] ← v.slots? strict ["format", "severity"] | none
  return {
    format := ← format.orDefault none (Value.nullable? Value.text?)
    severity := ← severity.orDefault none (Value.nullable? Value.text?) }

def Settings.ofValue? (strict : Strictness) (v : Value) : Option Settings := do
  let [race, lockOrder, stress, exclude, display] ←
    v.slots? strict ["shared_state", "lock_order", "stress", "exclude", "defaults"] | none
  return {
    race := ← race.orDefault {} (RaceSettings.ofValue? strict)
    lockOrder := ← lockOrder.orDefault {} (LockOrderSettings.ofValue? strict)
    stress := ← stress.orDefault {} (StressSettings.ofValue? strict)
    exclude := ← exclude.orDefault {} (ExcludeSettings.ofValue? strict)
    display := ← display.orDefault {} (DisplaySettings.ofValue? strict) }

end Interlock
