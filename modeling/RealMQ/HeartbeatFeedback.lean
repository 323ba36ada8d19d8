import RealMQ.SendHeartbeat

/- Where the answers of the server drive the heartbeats of send_heartbeat: the longer nothing is
   missed the rarer they get, and twenty misses in one answer fix their rate for good, as long as
   no heartbeat puts back a window that has not gone through the last answers. -/
namespace RealMQ.SendHeartbeat
open HeartbeatHistories HistoryUpdates PhiAccrualDetectors DetectorStates

section Ratios
variable {reports more : List Int}

theorem ratio_append : ratio (reports ++ more) = ratio reports * ratio more := by
  rw [ratio, List.map_append, List.prod_append]
  rfl

theorem ratio_lossless (lossless : ∀ m ∈ more, m = 0) : ratio more = (21 / 20) ^ more.length := by
  rw [List.eq_replicate_of_mem lossless, List.length_replicate, ratio, List.map_replicate,
    List.prod_replicate, clampedFactor_zero]

theorem ratio_pinned {m : Int} (member : m ∈ reports) (many : 20 ≤ m) : ratio reports = 0 := by
  have zero : (clampedFactor m : ℝ) = 0 := by
    apply le_antisymm _ (clampedFactor_nonneg m)
    rw [← not_lt, clampedFactor_pos_iff]
    omega
  exact List.prod_eq_zero (List.mem_map.mpr ⟨m, member, zero⟩)

end Ratios

/-- No compare_and_set takes a report back. -/
def Heard (process : Process) : Event → Prop
  | .set thread => process.kept (.newState thread) = process.kept .detectorState
  | _ => True

section Onward
variable {parameters : PhiAccrualDetector ℝ} {first : HeartbeatHistory ℝ} {process later : Process}
  {more : List Event}

theorem heard_step {event : Event} (sound : Sound parameters first process)
    (started : process.state.timestamp ≠ 0) (heard : Heard process event)
    (moved : step parameters process event = some later) :
    later.state.timestamp ≠ 0 ∧
      later.kept .detectorState = process.kept .detectorState ++ adjusts [event] := by
  cases step_taken sound.aliased moved with
  | build thread attempt waiting timely own stays =>
    constructor
    · rw [state_built, DetectorInterleavings.prepared_timestamp]
      exact started
    · simp [Process.built, Process.reports, started, adjusts]
  | set thread why attempt cause phase =>
    obtain ⟨positive, copied⟩ := sound.copied thread _ _ phase
    have seen := congrArg View.timestamp ((beaten_view process thread why attempt).trans copied)
    constructor
    · exact ne_of_eq_of_ne seen positive.ne'
    · have same : process.kept (.newState thread) = process.kept .detectorState := heard
      simp [Process.beaten, adjusts, same]
  | adjust missedCount =>
    constructor
    · simp only [Process.state, Process.adjusted, DetectorInterleavings.adjust, Function.update_self,
        adjustState]
      exact started
    · simp [Process.adjusted, adjusts]
  | _ => exact ⟨started, (List.append_nil _).symm⟩

theorem heard_run (usable : Usable parameters) (new : firstHeartbeat parameters = some first)
    (sound : Sound parameters first process) (started : process.state.timestamp ≠ 0)
    (heard : Runs.Meets (step parameters) Heard process more)
    (onward : Runs.run (step parameters) process more = some later) :
    later.state.timestamp ≠ 0 ∧
      later.kept .detectorState = process.kept .detectorState ++ adjusts more := by
  induction more generalizing process with
  | nil =>
    obtain rfl := Option.some.inj onward
    exact ⟨started, (List.append_nil _).symm⟩
  | cons event more ih =>
    obtain ⟨between, moved, rest⟩ := Runs.run_cons_some.mp onward
    obtain ⟨still, reported⟩ := heard_step sound started heard.1 moved
    obtain ⟨final, all⟩ := ih (sound_step usable new sound moved) still (heard.2 between moved) rest
    exact ⟨final, by rw [all, reported, adjusts_cons event more, List.append_assoc]⟩

end Onward

end RealMQ.SendHeartbeat
