import Gput.Batcher.Returns
import Mathlib.Data.Finset.Card

/-!
# When the queue is full

The jobs in the queue belong to calls in progress, or to calls whose caller has gone
(`State.stale`).  So a call finds the queue full only when that many other calls are
under way (`Followed.queue_add_le`).
-/

namespace Gput
namespace Batcher

/-- The number of jobs in the queue whose caller has gone. -/
def State.stale (s : State) : Nat :=
  s.queue.countP fun job => s.calls job.reply = .abandoned

section Queue

variable {config : BatcherConfig} {events : List Event} {s s' : State} {e : Event}

theorem Followed.queue_mem (h : Followed config events s) {job : Job} (hmem : job ∈ s.queue) :
    job ∈ accepted events := by
  rw [h.delivered.tracked.order]
  exact List.mem_append_right _ hmem

/-- No call has two jobs in the queue. -/
theorem Followed.queue_nodup (h : Followed config events s) :
    (s.queue.map Job.reply).Nodup := by
  have hdistinct := h.delivered.callers.distinct
  rw [h.delivered.tracked.order, List.map_append] at hdistinct
  exact (List.nodup_append.mp hdistinct).2.1

/-- A job in the queue has not been answered. -/
theorem Followed.queue_unanswered (h : Followed config events s) {job : Job}
    (hmem : job ∈ s.queue) {answer : Answer} : (job.reply, answer) ∉ replies events := by
  intro hreply
  have hdistinct := h.delivered.callers.distinct
  rw [h.delivered.tracked.answers_extend] at hdistinct
  refine (List.nodup_append.mp hdistinct).2.2 job.reply ?_ job.reply ?_ rfl
  · exact List.mem_map.mpr ⟨_, List.mem_append_left _ hreply, rfl⟩
  · exact List.mem_map.mpr ⟨job, List.mem_append_right _ hmem, rfl⟩

/-- Its call is in progress, unless the caller has gone. -/
theorem Followed.queue_inProgress (h : Followed config events s) {job : Job}
    (hmem : job ∈ s.queue) :
    s.calls job.reply = .abandoned ∨ (s.calls job.reply).inProgress = true := by
  have hentered := (h.delivered.callers.entered job.reply).mp
    (List.mem_map_of_mem (h.queue_mem hmem))
  have hunanswered {answer : Answer} := @Followed.queue_unanswered _ _ _ h _ hmem answer
  cases hcall : s.calls job.reply with
  | abandoned => exact Or.inl rfl
  | sent | waiting => exact Or.inr rfl
  | answered bytes =>
      exact absurd (h.delivered.callers.answered job.reply bytes hcall) hunanswered
  | rejected error =>
      cases error with
      | processing message =>
          exact absurd (h.delivered.callers.failed job.reply message hcall) hunanswered
      | _ => simp [hcall, Call.entered] at hentered
  | _ => simp [hcall, Call.entered] at hentered

/-- The queue and other calls in progress: each of them borrows a handle. -/
theorem Followed.queue_add_le (h : Followed config events s) {others : Finset Nat}
    (hprogress : ∀ call ∈ others, (s.calls call).inProgress = true)
    (houtside : ∀ job ∈ s.queue, job.reply ∉ others) :
    s.queue.length + others.card ≤ s.stale + s.active := by
  obtain ⟨calls, hcard, hcalls⟩ := h.borrowed.counted
  let waiting := s.queue.filter fun job => ¬ s.calls job.reply = .abandoned
  have hwaiting : s.queue.length = s.stale + waiting.length := by
    rw [← List.countP_eq_length_filter, State.stale,
      List.length_eq_countP_add_countP fun job => s.calls job.reply = .abandoned]
    simp
  have hnodup : (waiting.map Job.reply).Nodup :=
    h.queue_nodup.sublist (List.filter_sublist.map Job.reply)
  have hdisjoint : Disjoint (waiting.map Job.reply).toFinset others := by
    refine Finset.disjoint_left.mpr fun call hcall hother => ?_
    obtain ⟨job, hjob, rfl⟩ := List.mem_map.mp (List.mem_toFinset.mp hcall)
    exact houtside job (List.mem_of_mem_filter hjob) hother
  have hsubset : (waiting.map Job.reply).toFinset ∪ others ⊆ calls := by
    intro call hcall
    refine (hcalls call).mpr ?_
    rcases Finset.mem_union.mp hcall with hcall | hother
    · obtain ⟨job, hjob, rfl⟩ := List.mem_map.mp (List.mem_toFinset.mp hcall)
      obtain ⟨hmem, hstays⟩ := List.mem_filter.mp hjob
      exact (h.queue_inProgress hmem).resolve_left (by simpa using hstays)
    · exact hprogress call hother
  have hle := Finset.card_le_card hsubset
  rw [Finset.card_union_of_disjoint hdisjoint, List.toFinset_card_of_nodup hnodup,
    List.length_map] at hle
  omega

/-- A call that is about to send its job is not in the queue. -/
theorem Followed.queue_outside (h : Followed config events s) {call : Nat}
    {request : List UInt8} (hcall : s.calls call = .ready request) :
    ∀ job ∈ s.queue, job.reply ∉ ({call} : Finset Nat) := by
  intro job hmem hother
  rw [Finset.mem_singleton] at hother
  have hprogress := (h.delivered.callers.entered job.reply).mp
    (List.mem_map_of_mem (h.queue_mem hmem))
  simp [hother, hcall, Call.entered] at hprogress

/-- A call begins by `submit`. -/
theorem Moves.inProgress (hmoves : Moves config s e s') {call : Nat}
    (h : (s'.calls call).inProgress = true) :
    (s.calls call).inProgress = true ∨ ∃ request, e = .submit call request := by
  have moved {other : Nat} {stage : Call} (hother : (s.calls other).inProgress = true)
      (hcall : (Function.update s.calls other stage call).inProgress = true) :
      (s.calls call).inProgress = true := by
    by_cases hsame : call = other
    · rw [hsame]
      exact hother
    · rwa [Function.update_of_ne hsame] at hcall
  cases hmoves with
  | submit other request _ _ =>
      by_cases hsame : call = other
      · exact Or.inr ⟨request, by rw [hsame]⟩
      · left
        have hcall : (Function.update s.calls other (.ready request) call).inProgress = true := h
        rwa [Function.update_of_ne hsame] at hcall
  | accept job hother _ _ => exact Or.inl (moved (by rw [hother]; rfl) h)
  | overload job hother _ => exact Or.inl (moved (by rw [hother]; rfl) h)
  | disconnect job hother => exact Or.inl (moved (by rw [hother]; rfl) h)
  | countAccepted other hother => exact Or.inl (moved (by rw [hother]; rfl) h)
  | countRejected other hother => exact Or.inl (moved (by rw [hother]; rfl) h)
  | receiveResponse other bytes hother _ => exact Or.inl (moved (by rw [hother]; rfl) h)
  | receiveFailure other message hother _ => exact Or.inl (moved (by rw [hother]; rfl) h)
  | abandon other hother => exact Or.inl (moved (by rw [hother]; rfl) h)
  | _ => exact Or.inl h

/-- One caller that goes leaves at most one job behind. -/
theorem countP_update_le {jobs : List Job} (hnodup : (jobs.map Job.reply).Nodup)
    (calls : Nat → Call) (call : Nat) :
    jobs.countP (fun job => Function.update calls call .abandoned job.reply = .abandoned) ≤
      jobs.countP (fun job => calls job.reply = .abandoned) + 1 := by
  induction jobs with
  | nil => simp
  | cons job jobs ih =>
      obtain ⟨hnew, hnodup⟩ := List.nodup_cons.mp hnodup
      rw [List.countP_cons, List.countP_cons]
      by_cases hcall : job.reply = call
      · -- then the call has no other job
        have hsame : jobs.countP (fun other => Function.update calls call .abandoned other.reply =
            .abandoned) = jobs.countP (fun other => calls other.reply = .abandoned) := by
          refine List.countP_congr fun other hother => ?_
          rw [Function.update_of_ne]
          rintro rfl
          exact hnew (hcall ▸ List.mem_map_of_mem hother)
        simp only [hsame, hcall, Function.update_self, decide_true, if_true]
        omega
      · rw [Function.update_of_ne hcall]
        have := ih hnodup
        omega

/-- The jobs that wait for nobody become more only when a caller goes. -/
theorem Moves.stale_le (hmoves : Moves config s e s') (hnodup : (s.queue.map Job.reply).Nodup) :
    s'.stale ≤ s.stale ∨ s'.stale ≤ s.stale + 1 ∧ ∃ call, e = .abandon call := by
  have moved {call : Nat} {stage : Call} (hstage : stage ≠ .abandoned)
      (hcall : s.calls call ≠ .abandoned) :
      s.queue.countP (fun job => Function.update s.calls call stage job.reply = .abandoned) ≤
        s.stale := by
    refine List.countP_mono_left fun job _ habandoned => ?_
    rw [decide_eq_true_eq] at habandoned ⊢
    by_cases hsame : job.reply = call
    · rw [hsame, Function.update_self] at habandoned
      exact absurd habandoned hstage
    · rwa [Function.update_of_ne hsame] at habandoned
  cases hmoves with
  | submit call request _ hcall => exact Or.inl (moved (by simp) (by simp [hcall]))
  | accept job hcall _ _ =>
      left
      have hle := @moved job.reply .sent (by simp) (by simp [hcall])
      refine le_trans ?_ hle
      show (s.queue ++ [job]).countP
        (fun other => Function.update s.calls job.reply .sent other.reply = .abandoned) ≤ _
      simp [List.countP_append]
  | overload job hcall _ => exact Or.inl (moved (by simp) (by simp [hcall]))
  | disconnect job hcall => exact Or.inl (moved (by simp) (by simp [hcall]))
  | countAccepted call hcall => exact Or.inl (moved (by simp) (by simp [hcall]))
  | countRejected call hcall => exact Or.inl (moved (by simp) (by simp [hcall]))
  | receiveResponse call _ hcall _ => exact Or.inl (moved (by simp) (by simp [hcall]))
  | receiveFailure call _ hcall _ => exact Or.inl (moved (by simp) (by simp [hcall]))
  | abandon call _ => exact Or.inr ⟨countP_update_le hnodup s.calls call, call, rfl⟩
  | takeFirst job queue _ hqueue | takeNext _ job queue _ _ hqueue =>
      left
      show queue.countP (fun other => s.calls other.reply = .abandoned) ≤ _
      rw [State.stale, hqueue, List.countP_cons]
      exact Nat.le_add_right _ _
  | _ => exact Or.inl (Nat.le_refl _)

/-- No call has found the queue full, and none is counted. -/
structure Unrefused (s : State) : Prop where
  calls : ∀ call, s.calls call ≠ .refused ∧ s.calls call ≠ .rejected .overloaded
  counted : s.metrics.rejectedRequests = 0

theorem unrefused_start : Unrefused initial :=
  ⟨fun _ => by simp [initial], rfl⟩

theorem processed_rejected (metrics : BatcherMetrics) (jobs : List Job) (result : BatchResult) :
    (metrics.processed jobs result).rejectedRequests = metrics.rejectedRequests := by
  cases result with
  | ok responses => by_cases hlength : responses.length = jobs.length <;>
      simp [BatcherMetrics.processed, hlength]
  | err message => rfl

/-- A call is refused by a full queue only. -/
theorem Unrefused.next (h : Unrefused s) (hmoves : Moves config s e s')
    (hroom : ∀ job, e ≠ .overload job) : Unrefused s' := by
  have moved {call : Nat} {stage : Call}
      (hstage : stage ≠ .refused ∧ stage ≠ .rejected .overloaded) (other : Nat) :
      Function.update s.calls call stage other ≠ .refused ∧
        Function.update s.calls call stage other ≠ .rejected .overloaded := by
    by_cases hsame : other = call
    · subst hsame
      rwa [Function.update_self]
    · rw [Function.update_of_ne hsame]
      exact h.calls other
  cases hmoves with
  | overload job => exact absurd rfl (hroom job)
  | countRejected call hcall => exact absurd hcall (h.calls call).1
  | process jobs result _ => exact ⟨h.calls, (processed_rejected _ _ _).trans h.counted⟩
  | submit | accept | disconnect | countAccepted | receiveResponse | receiveFailure | abandon =>
      exact ⟨moved (by simp), h.counted⟩
  | _ => exact ⟨h.calls, h.counted⟩

end Queue

end Batcher
end Gput
