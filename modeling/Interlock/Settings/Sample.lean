/-!
# A sample of settings

The text of a settings file with every setting at its default.
-/

namespace Interlock

/-- A settings file with all defaults written out. -/
def Settings.sample : String :=
  "# Repotoire concurrency analysis configuration

[shared_state]
# Accesses above this count raise severity
frequency_threshold = 5
# Attribute name fragments treated as critical data
critical_data = [\"balance\", \"account\", \"payment\", \"password\", \"secret\", \"token\", \"session\"]
# Extra attribute/variable names to treat as locks
lock_names = []
# Analyze files even when they show no sign of threading
assume_concurrent = false

[lock_order]
lock_names = []
# Follow self.method() calls made while holding a lock
follow_self_calls = true

[stress]
threads = 10
iterations = 1000
timeout_secs = 30.0

[exclude]
paths = []

[defaults]
format = \"text\"
severity = \"low\"
"

end Interlock
