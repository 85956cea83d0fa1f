import FormatFuzz.Proofs.Fuzz.Consistent
import FormatFuzz.Proofs.Fuzz.Showing

/-!
# A replay depends on its entry and the formatter alone

The first try of a replay keeps whatever the check of the entry comes to: nothing is passed over or
dropped, and every verdict is reported. So two loops with the same entry and the same formatter report the
same, however they differ in all that is left out of a replay: the generator, the sampler, the filter, the
randomness and what is to be shown. Only a fault that is no failure, such as an interruption, or that
cannot say what it is breaks the try off.
-/

namespace FormatFuzz

open FormatFuzz.Random

variable {γ γ' φ σ σ' : Type}

namespace Checker

variable {c : Checker φ} {source : String} {options : Options} {s t : φ} {fault : Fault}

end Checker

namespace Loop

section

variable [Source σ] {l : Loop γ φ σ} {entry : Replay}

end

end Loop

end FormatFuzz
