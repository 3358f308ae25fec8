import ForeignCall.Proofs.Profile.Spans

namespace ForeignCall.Profile.Profiler

variable {ρ : Type} {labeller : Labeller ρ} {p : Profiler ρ}

section Closing

variable {scopes : List Scope}

theorem log_close (client : Client) (scopes : List Scope) :
    (close client scopes).log = client.log ++ scopes.flatMap Scope.closing := by
  induction scopes generalizing client with
  | nil => exact (List.append_nil _).symm
  | cons scope scopes ih =>
      calc (close (client.endSpan scope.span scope.label) scopes).log
          = (client.endSpan scope.span scope.label).log ++ scopes.flatMap Scope.closing := ih _
        _ = client.log ++ (scope :: scopes).flatMap Scope.closing := by
            rw [Client.endSpan_eq, List.flatMap_cons, List.append_assoc]

theorem guards_reverse (scopes : List Scope) : guards scopes.reverse = (guards scopes).reverse :=
  List.filterMap_reverse

theorem closing_of_guards {span : Nat} {spans : List Nat} (h : guards scopes = span :: spans) :
    ∃ label future, scopes.flatMap Scope.closing = .ended span label :: future := by
  induction scopes with
  | nil => cases h
  | cons scope scopes ih =>
      rw [guards_cons] at h
      rw [List.flatMap_cons, Scope.closing]
      cases hspan : scope.span with
      | none =>
          rw [hspan] at h
          exact ih h
      | some held =>
          rw [hspan] at h
          obtain rfl : held = span := (List.cons.inj h).1
          exact ⟨scope.label, _, rfl⟩

end Closing

section Order

variable {spans : List Nat}

theorem length_le_one_of_ends (hnodup : spans.Nodup) (h : spans.head? = spans.getLast?) :
    spans.length ≤ 1 := by
  rcases spans with _ | ⟨first, _ | ⟨second, spans⟩⟩
  · exact Nat.zero_le 1
  · exact Nat.le_refl 1
  · -- The first span is also the last of those after it.
    rw [List.getLast?_cons_cons, List.head?_cons] at h
    exact absurd (List.mem_of_getLast? h.symm) (List.nodup_cons.1 hnodup).1

theorem reverse_eq_self_iff (hnodup : spans.Nodup) :
    spans.reverse = spans ↔ spans.length ≤ 1 := by
  constructor
  · intro h
    refine length_le_one_of_ends hnodup ?_
    rw [List.getLast?_eq_head?_reverse, h]
  · intro h
    rcases spans with _ | ⟨first, _ | ⟨second, spans⟩⟩
    · rfl
    · rfl
    · exact absurd h (by simp)

end Order

theorem Balanced.pending_eq (h : p.Balanced) :
    pending p.client.log = guards p.scopes.reverse := by
  rw [h.nested.pending_eq, guards_reverse]

theorem Balanced.nodup_pending (h : p.Balanced) : (pending p.client.log).Nodup :=
  h.nested.nodup_begun.filter _

theorem Balanced.ended_dispose (h : p.Balanced) :
    ended p.dispose.log = ended p.client.log ++ pending p.client.log := by
  rw [Profiler.dispose, ended_close, h.pending_eq]

theorem Balanced.nested_close (h : p.Balanced) {scopes : List Scope}
    (horder : guards scopes = guards p.scopes) : Nested (close p.client scopes).log [] := by
  refine (open_close ?_).nested
  rw [horder, List.append_nil]
  exact h

theorem Balanced.length_le_of_nested (h : p.Balanced) (hnested : Nested p.dispose.log []) :
    (pending p.client.log).length ≤ 1 := by
  refine length_le_one_of_ends h.nodup_pending ?_
  cases hpending : pending p.client.log with
  | nil => rfl
  | cons span spans =>
      obtain ⟨label, future, hclosing⟩ := closing_of_guards (h.pending_eq.symm.trans hpending)
      have hlog : p.dispose.log = p.client.log ++ .ended span label :: future := by
        rw [Profiler.dispose, log_close, hclosing]
      rw [← hpending, hnested.innermost hlog, hpending, List.head?_cons]

theorem Balanced.nested_of_length_le (h : p.Balanced)
    (hlength : (pending p.client.log).length ≤ 1) : Nested p.dispose.log [] := by
  refine h.nested_close ?_
  rw [← h.pending_eq, ← (reverse_eq_self_iff h.nodup_pending).2 hlength, h.pending_eq,
    guards_reverse, List.reverse_reverse]

theorem Balanced.nested_dispose_iff (h : p.Balanced) :
    Nested p.dispose.log [] ↔ (pending p.client.log).length ≤ 1 :=
  ⟨h.length_le_of_nested, h.nested_of_length_le⟩

structure Disposed (p : Profiler ρ) : Prop where
  log_eq : p.dispose.log = p.client.log ++ p.scopes.reverse.flatMap Scope.closing
  outermost_first : ended p.dispose.log = ended p.client.log ++ pending p.client.log
  innermost_first_iff : ended p.dispose.log = ended p.client.log ++ (pending p.client.log).reverse ↔
    (pending p.client.log).length ≤ 1
  nested_iff : Nested p.dispose.log [] ↔ (pending p.client.log).length ≤ 1
  nested_close : Nested (close p.client p.scopes).log []

theorem disposed_outermost_first (labeller : Labeller ρ) (labels : ρ) (running : Bool)
    (reports : List Report) :
    Disposed ((new labels (.new running)).observeAll labeller reports) := by
  have h : ((new labels (.new running)).observeAll labeller reports).Balanced :=
    (balanced_new labels running).observeAll reports
  refine ⟨log_close _ _, h.ended_dispose, ?_, h.nested_dispose_iff, h.nested_close rfl⟩
  rw [h.ended_dispose, List.append_cancel_left_eq, eq_comm]
  exact reverse_eq_self_iff h.nodup_pending

theorem not_nested_of_two_open :
    let sig : Signature := ⟨[], .void, by decide⟩
    let labeller : Labeller Unit := ⟨fun _ _ _ => (none, ()), fun _ _ => (none, ())⟩
    let reports : List Report :=
      [⟨true, .enter ⟨16, by decide⟩ sig⟩, ⟨true, .enter ⟨3735928559, by decide⟩ sig⟩]
    let p := (new () (.new true)).observeAll labeller reports
    p.dispose.log = [.began 0 "native:0x10 () -> void", .began 1 "native:0xdeadbeef () -> void",
        .ended 0 "native:0x10 () -> void", .ended 1 "native:0xdeadbeef () -> void"] ∧
      ended p.dispose.log ≠ (pending p.client.log).reverse ∧ ¬ Nested p.dispose.log [] := by
  intro sig labeller reports p
  have h : p.Balanced := (balanced_new () true).observeAll reports
  have hpending : pending p.client.log = [0, 1] := by decide
  refine ⟨by decide, ?_, ?_⟩
  · rw [hpending]
    decide
  · rw [h.nested_dispose_iff, hpending]
    decide

end ForeignCall.Profile.Profiler
