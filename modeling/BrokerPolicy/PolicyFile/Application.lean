import BrokerPolicy.PolicyFile.Basic
import BrokerPolicy.Policy.Builder

set_option autoImplicit false

namespace BrokerPolicy.PolicyFile

def settings (edition : Edition) (f : PolicyFile) : List Setting :=
  (f.timeoutSeconds.map fun s => Setting.timeout (Duration.ofSeconds s)).toList ++
    (f.thresholdSeconds.map fun s => Setting.threshold (some (Duration.ofSeconds s))).toList ++
    (f.shuffle.map Setting.shuffle).toList ++
    f.properties.map (fun e => Setting.property e.1 e.2) ++
    (if edition = .experimental then f.tunables.map Setting.tunable else [])

/-- The part of a file before a refused name stays. -/
def apply (edition : Edition) (f : PolicyFile) (b : Builder) : Builder.Made :=
  b.setAll (f.settings edition)

end BrokerPolicy.PolicyFile
