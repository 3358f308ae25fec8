import ForeignCall.Profile.Profiler
import Mathlib.Data.List.Nodup
import Mathlib.Data.List.Range

namespace ForeignCall.Profile

section Log

def Entry.begun? : Entry → Option Nat
  | .began span _ => some span
  | .ended _ _ | .message _ => none

def Entry.ended? : Entry → Option Nat
  | .ended span _ => some span
  | .began _ _ | .message _ => none

def begun (log : List Entry) : List Nat :=
  log.filterMap Entry.begun?

def ended (log : List Entry) : List Nat :=
  log.filterMap Entry.ended?

def pending (log : List Entry) : List Nat :=
  (begun log).filter fun span => span ∉ ended log

variable {log : List Entry} {spans : List Nat}

theorem begun_concat (log : List Entry) (entry : Entry) :
    begun (log ++ [entry]) = begun log ++ entry.begun?.toList := by
  cases entry <;> exact List.filterMap_append

theorem ended_concat (log : List Entry) (entry : Entry) :
    ended (log ++ [entry]) = ended log ++ entry.ended?.toList := by
  cases entry <;> exact List.filterMap_append

theorem pending_message (log : List Entry) (text : String) :
    pending (log ++ [.message text]) = pending log := by
  simp [pending, begun_concat, ended_concat, Entry.begun?, Entry.ended?]

theorem pending_began {span : Nat} (label : String) (hfresh : span ∉ ended log) :
    pending (log ++ [.began span label]) = pending log ++ [span] := by
  simp [pending, begun_concat, ended_concat, Entry.begun?, Entry.ended?, hfresh]

theorem pending_ended (log : List Entry) (span : Nat) (label : String) :
    pending (log ++ [.ended span label]) = (pending log).filter fun other => other ≠ span := by
  simp [pending, begun_concat, ended_concat, Entry.begun?, Entry.ended?, not_or, and_comm]

-- A log that leaves the given spans open, the innermost first. Only the innermost span is ended, and
-- spans are numbered as they begin.
inductive Nested : List Entry → List Nat → Prop where
  | start : Nested [] []
  | sent {log : List Entry} {spans : List Nat} (text : String) (nested : Nested log spans) :
      Nested (log ++ [.message text]) spans
  | opened {log : List Entry} {spans : List Nat} (label : String) (nested : Nested log spans) :
      Nested (log ++ [.began (begun log).length label]) ((begun log).length :: spans)
  | closed {log : List Entry} {span : Nat} {spans : List Nat} (label : String)
      (nested : Nested log (span :: spans)) : Nested (log ++ [.ended span label]) spans

theorem Nested.begun_eq (h : Nested log spans) : begun log = List.range (begun log).length := by
  induction h with
  | start => rfl
  | sent text _ ih | closed label _ ih => simpa [begun_concat, Entry.begun?] using ih
  | opened label _ ih =>
      simp only [begun_concat, Entry.begun?, Option.toList_some, List.length_append,
        List.length_singleton, List.range_succ, ← ih]

theorem Nested.nodup_begun (h : Nested log spans) : (begun log).Nodup := by
  rw [h.begun_eq]
  exact List.nodup_range

theorem Nested.perm (h : Nested log spans) : (ended log ++ spans).Perm (begun log) := by
  induction h with
  | start => exact .nil
  | sent text _ ih | closed label _ ih =>
      simpa [begun_concat, ended_concat, Entry.begun?, Entry.ended?] using ih
  | opened label _ ih =>
      simp only [begun_concat, ended_concat, Entry.begun?, Entry.ended?, Option.toList_some,
        Option.toList_none, List.append_nil]
      exact List.perm_middle.trans
        ((List.perm_append_singleton _ _).symm.trans (ih.append_right _))

theorem Nested.nodup (h : Nested log spans) : (ended log ++ spans).Nodup :=
  h.perm.nodup_iff.2 h.nodup_begun

theorem Nested.pending_eq (h : Nested log spans) : pending log = spans.reverse := by
  induction h with
  | start => rfl
  | sent text _ ih => rw [pending_message, ih]
  | @opened log spans label hlog ih =>
      have hfresh : (begun log).length ∉ ended log := by
        intro hmem
        have hbegun := hlog.perm.subset (List.mem_append_left spans hmem)
        rw [hlog.begun_eq, List.mem_range, List.length_range] at hbegun
        exact absurd hbegun (Nat.lt_irrefl _)
      rw [pending_began label hfresh, ih, List.reverse_cons]
  | @closed log span spans label hlog ih =>
      have hspans : (span :: spans).Nodup := hlog.nodup.of_append_right
      rw [List.nodup_cons] at hspans
      rw [pending_ended, ih, List.reverse_cons, List.filter_append]
      have hkept : spans.reverse.filter (fun other => other ≠ span) = spans.reverse := by
        rw [List.filter_eq_self]
        intro other hother
        rw [decide_eq_true_eq]
        rintro rfl
        exact hspans.1 (List.mem_reverse.1 hother)
      rw [hkept]
      simp

theorem split_concat {past future : List Entry} {entry last : Entry}
    (h : log ++ [last] = past ++ entry :: future) :
    (log = past ∧ last = entry) ∨ ∃ rest, log = past ++ entry :: rest := by
  rcases List.eq_nil_or_concat' future with rfl | ⟨rest, final, rfl⟩
  · obtain ⟨hlog, hlast⟩ := List.append_inj' h rfl
    exact .inl ⟨hlog, List.singleton_inj.1 hlast⟩
  · rw [← List.cons_append, ← List.append_assoc] at h
    exact .inr ⟨rest, (List.append_inj' h rfl).1⟩

theorem Nested.innermost (h : Nested log spans) {past future : List Entry} {span : Nat}
    {label : String} (hsplit : log = past ++ .ended span label :: future) :
    (pending past).getLast? = some span := by
  induction h generalizing future with
  | start => cases past <;> cases hsplit
  | sent text _ ih | opened label _ ih =>
      rcases split_concat hsplit with ⟨-, hlast⟩ | ⟨rest, hrest⟩
      · cases hlast
      · exact ih hrest
  | closed label hlog ih =>
      rcases split_concat hsplit with ⟨rfl, hlast⟩ | ⟨rest, hrest⟩
      · cases hlast
        rw [hlog.pending_eq, List.reverse_cons, List.getLast?_concat]
      · exact ih hrest

end Log

section Client

structure Client.Open (client : Client) (spans : List Nat) : Prop where
  nested : Nested client.log spans
  numbered : client.spans = (begun client.log).length

variable {client : Client} {spans : List Nat}

theorem Client.begun_endSpan (client : Client) (span : Option Nat) (label : String) :
    begun (client.endSpan span label).log = begun client.log := by
  cases span with
  | none => rfl
  | some span => exact (begun_concat _ _).trans (List.append_nil _)

theorem Client.ended_endSpan (client : Client) (span : Option Nat) (label : String) :
    ended (client.endSpan span label).log = ended client.log ++ span.toList := by
  cases span with
  | none => exact (List.append_nil _).symm
  | some span => exact ended_concat _ _

def Scope.opening (scope : Scope) : List Entry :=
  (scope.span.map fun span => .began span scope.label).toList

def Scope.closing (scope : Scope) : List Entry :=
  (scope.span.map fun span => .ended span scope.label).toList

theorem Client.endSpan_eq (client : Client) (scope : Scope) :
    client.endSpan scope.span scope.label =
      { client with log := client.log ++ scope.closing } := by
  obtain ⟨callee, label, span⟩ := scope
  cases span with
  | none => exact congrArg (Client.mk _ _) (List.append_nil _).symm
  | some span => rfl

theorem Client.open_new (running : Bool) : (new running).Open [] :=
  ⟨.start, rfl⟩

theorem Client.Open.message (h : client.Open spans) (text : String) :
    (client.record (.message text)).Open spans where
  nested := h.nested.sent text
  numbered := by simpa [record, begun_concat, Entry.begun?] using h.numbered

theorem Client.Open.beginSpan (h : client.Open spans) (label : String) :
    (client.beginSpan label).2.Open ((client.beginSpan label).1.toList ++ spans) := by
  unfold Client.beginSpan
  split
  · refine ⟨?_, ?_⟩
    · rw [h.numbered]
      exact h.nested.opened label
    · simpa [record, begun_concat, Entry.begun?] using h.numbered
  · exact h

theorem Client.Open.endSpan {span : Option Nat} (label : String)
    (h : client.Open (span.toList ++ spans)) : (client.endSpan span label).Open spans := by
  cases span with
  | none => exact h
  | some span =>
      refine ⟨h.nested.closed label, ?_⟩
      simpa [Client.endSpan, record, begun_concat, Entry.begun?] using h.numbered

end Client

namespace Profiler

variable {ρ : Type} {labeller : Labeller ρ} {p : Profiler ρ}

def guards (scopes : List Scope) : List Nat :=
  scopes.filterMap Scope.span

theorem guards_cons (scope : Scope) (scopes : List Scope) :
    guards (scope :: scopes) = scope.span.toList ++ guards scopes := by
  unfold guards
  rw [List.filterMap_cons]
  cases scope.span <;> rfl

theorem open_close {client : Client} {scopes : List Scope} {spans : List Nat}
    (h : client.Open (guards scopes ++ spans)) : (close client scopes).Open spans := by
  induction scopes generalizing client with
  | nil => exact h
  | cons scope scopes ih =>
      rw [guards_cons, List.append_assoc] at h
      exact ih (h.endSpan scope.label)

section Exit

variable {callee : Address} {scope : Scope} {scopes : List Scope}

theorem exit_of_innermost (h : p.scopes = scope :: scopes) (hcallee : scope.callee = callee) :
    p.exit callee = { p with scopes, client := close p.client [scope] } := by
  rw [exit, h]
  exact if_pos hcallee

theorem depth_exit_of_innermost (h : p.scopes.head?.map Scope.callee = some callee) :
    (p.exit callee).depth + 1 = p.depth := by
  obtain ⟨scope, hhead, hcallee⟩ := Option.map_eq_some_iff.1 h
  obtain ⟨scopes, hscopes⟩ := List.head?_eq_some_iff.1 hhead
  rw [exit_of_innermost hscopes hcallee, depth, depth, hscopes]
  rfl

theorem exit_of_mismatch (h : p.scopes.head?.map Scope.callee ≠ some callee) :
    p.exit callee = { p with scopes := [], client := close p.client p.scopes } := by
  obtain ⟨labels, scopes, client⟩ := p
  cases scopes with
  | nil => rfl
  | cons scope scopes => exact if_neg fun heq => h (congrArg some heq)

theorem depth_exit_of_mismatch (h : p.scopes.head?.map Scope.callee ≠ some callee) :
    (p.exit callee).depth = 0 := by
  rw [exit_of_mismatch h]
  rfl

end Exit

def Balanced (p : Profiler ρ) : Prop :=
  p.client.Open (guards p.scopes)

theorem balanced_new (labels : ρ) (running : Bool) : (new labels (.new running)).Balanced :=
  Client.open_new running

theorem Balanced.enter (h : p.Balanced) (callee : Address) (sig : Signature) :
    (p.enter labeller callee sig).Balanced := by
  rw [Balanced, Profiler.enter, guards_cons]
  exact Client.Open.beginSpan h _

theorem Balanced.exit (h : p.Balanced) (callee : Address) : (p.exit callee).Balanced := by
  by_cases hcallee : p.scopes.head?.map Scope.callee = some callee
  · obtain ⟨scope, hhead, hcallee⟩ := Option.map_eq_some_iff.1 hcallee
    obtain ⟨scopes, hscopes⟩ := List.head?_eq_some_iff.1 hhead
    rw [Balanced, hscopes, guards_cons] at h
    rw [exit_of_innermost hscopes hcallee]
    exact Client.Open.endSpan scope.label h
  · rw [exit_of_mismatch hcallee]
    refine open_close ?_
    change p.client.Open (guards p.scopes ++ [])
    rwa [List.append_nil]

theorem Balanced.lookup (h : p.Balanced) (shape : Shape) (outcome : Outcome) :
    (p.lookup labeller shape outcome).Balanced := by
  unfold Profiler.lookup
  split
  · exact Client.Open.message h _
  · exact h

theorem Balanced.receive (h : p.Balanced) (event : Event) :
    (p.receive labeller event).Balanced := by
  cases event with
  | lookup shape outcome => exact h.lookup shape outcome
  | enter callee sig => exact h.enter callee sig
  | exit callee _ => exact h.exit callee

structure Report where
  running : Bool
  event : Event
  deriving DecidableEq, Repr

def switch (p : Profiler ρ) (running : Bool) : Profiler ρ :=
  { p with client := { p.client with running } }

def observe (labeller : Labeller ρ) (p : Profiler ρ) (report : Report) : Profiler ρ :=
  (p.switch report.running).receive labeller report.event

def observeAll (labeller : Labeller ρ) (p : Profiler ρ) (reports : List Report) : Profiler ρ :=
  reports.foldl (observe labeller) p

theorem Balanced.switch (h : p.Balanced) (running : Bool) : (p.switch running).Balanced :=
  ⟨h.nested, h.numbered⟩

theorem Balanced.observe (h : p.Balanced) (report : Report) : (p.observe labeller report).Balanced :=
  (h.switch report.running).receive report.event

theorem Balanced.observeAll (h : p.Balanced) (reports : List Report) :
    (p.observeAll labeller reports).Balanced := by
  induction reports generalizing p with
  | nil => exact h
  | cons report reports ih => exact ih (h.observe report)

section Standing

def Report.entered? (report : Report) : Option Address :=
  match report.event with
  | .enter callee _ => some callee
  | .lookup _ _ | .exit _ _ => none

def stand (standing : List Report) (report : Report) : List Report :=
  match report.event with
  | .lookup _ _ => standing
  | .enter _ _ => report :: standing
  | .exit callee _ =>
      match standing with
      | [] => []
      | innermost :: outer => if innermost.entered? = some callee then outer else []

def standing (reports : List Report) : List Report :=
  reports.foldl stand []

structure Opened (scope : Scope) (report : Report) : Prop where
  entered : report.entered? = some scope.callee
  held : scope.span.isSome = report.running

theorem isSome_beginSpan (client : Client) (label : String) :
    (client.beginSpan label).1.isSome = client.running := by
  unfold Client.beginSpan
  split
  · next h => exact h.symm
  · next h => exact (Bool.eq_false_iff.2 h).symm

theorem scopes_lookup (p : Profiler ρ) (shape : Shape) (outcome : Outcome) :
    (p.lookup labeller shape outcome).scopes = p.scopes := by
  unfold lookup
  split <;> rfl

theorem opened_exit {reports : List Report} (h : List.Forall₂ Opened p.scopes reports)
    (running : Bool) (callee : Address) (sig : Signature) :
    List.Forall₂ Opened (p.exit callee).scopes (stand reports ⟨running, .exit callee sig⟩) := by
  generalize hscopes : p.scopes = scopes at h
  cases h with
  | nil =>
      rw [exit, hscopes]
      change List.Forall₂ Opened p.scopes []
      rw [hscopes]
      exact .nil
  | @cons scope innermost scopes outer opened rest =>
      change List.Forall₂ _ _ (if innermost.entered? = some callee then outer else [])
      rw [opened.entered]
      by_cases hcallee : scope.callee = callee
      · rw [exit_of_innermost hscopes hcallee, if_pos (congrArg some hcallee)]
        exact rest
      · have hne : some scope.callee ≠ some callee := fun heq => hcallee (Option.some.inj heq)
        have hmismatch : p.scopes.head?.map Scope.callee ≠ some callee := by
          rw [hscopes]
          exact hne
        rw [exit_of_mismatch hmismatch, if_neg hne]
        exact .nil

theorem opened_observe {reports : List Report} (h : List.Forall₂ Opened p.scopes reports)
    (report : Report) :
    List.Forall₂ Opened (p.observe labeller report).scopes (stand reports report) := by
  obtain ⟨running, event⟩ := report
  cases event with
  | lookup shape outcome =>
      rw [observe, receive, scopes_lookup]
      exact h
  | enter callee sig => exact .cons ⟨rfl, isSome_beginSpan _ _⟩ h
  | exit callee sig =>
      have hswitch : List.Forall₂ Opened (p.switch running).scopes reports := h
      exact opened_exit hswitch running callee sig

theorem opened_observeAll {earlier : List Report} (h : List.Forall₂ Opened p.scopes earlier)
    (reports : List Report) :
    List.Forall₂ Opened (p.observeAll labeller reports).scopes (reports.foldl stand earlier) := by
  induction reports generalizing p earlier with
  | nil => exact h
  | cons report reports ih => exact ih (opened_observe h report)

end Standing

section Dispose

theorem begun_close (client : Client) (scopes : List Scope) :
    begun (close client scopes).log = begun client.log := by
  induction scopes generalizing client with
  | nil => rfl
  | cons scope scopes ih => exact (ih _).trans (Client.begun_endSpan client scope.span scope.label)

theorem ended_close (client : Client) (scopes : List Scope) :
    ended (close client scopes).log = ended client.log ++ guards scopes := by
  induction scopes generalizing client with
  | nil => exact (List.append_nil _).symm
  | cons scope scopes ih =>
      refine (ih _).trans ?_
      rw [Client.ended_endSpan, guards_cons, List.append_assoc]

theorem Balanced.dispose (h : p.Balanced) :
    (begun p.dispose.log).Nodup ∧ (ended p.dispose.log).Perm (begun p.dispose.log) := by
  have hguards : (guards p.scopes.reverse).Perm (guards p.scopes) :=
    (List.reverse_perm p.scopes).filterMap Scope.span
  rw [Profiler.dispose, begun_close, ended_close]
  exact ⟨h.nested.nodup_begun, (hguards.append_left _).trans h.nested.perm⟩

end Dispose

structure Accounted (reports : List Report) (p : Profiler ρ) : Prop where
  opened : List.Forall₂ Opened p.scopes (standing reports)
  pending_eq : pending p.client.log = (guards p.scopes).reverse
  innermost : ∀ past span label future, p.client.log = past ++ .ended span label :: future →
    (pending past).getLast? = some span
  nodup_ended : (ended p.client.log).Nodup
  disposed : (begun p.dispose.log).Nodup ∧ (ended p.dispose.log).Perm (begun p.dispose.log)

theorem spans_accounted (labeller : Labeller ρ) (labels : ρ) (running : Bool)
    (reports : List Report) :
    let p := (new labels (.new running)).observeAll labeller reports
    Accounted reports p ∧ ∀ running callee sig,
      (p.observe labeller ⟨running, .enter callee sig⟩).depth = p.depth + 1 ∧
      (p.scopes.head?.map Scope.callee = some callee →
        (p.observe labeller ⟨running, .exit callee sig⟩).depth + 1 = p.depth) ∧
      (p.scopes.head?.map Scope.callee ≠ some callee →
        (p.observe labeller ⟨running, .exit callee sig⟩).depth = 0) := by
  intro p
  have h : p.Balanced := (balanced_new labels running).observeAll reports
  have hopened : List.Forall₂ Opened p.scopes (standing reports) := opened_observeAll .nil reports
  refine ⟨⟨hopened, h.nested.pending_eq, fun _ _ _ _ => h.nested.innermost,
    h.nested.nodup.of_append_left, h.dispose⟩, fun running callee sig => ⟨rfl, ?_, ?_⟩⟩
  · exact fun hcallee => depth_exit_of_innermost (p := p.switch running) hcallee
  · exact fun hcallee => depth_exit_of_mismatch (p := p.switch running) hcallee

theorem spans_accounted_out_of_step :
    let sig : Signature := ⟨[], .void, by decide⟩
    let labeller : Labeller Unit := ⟨fun _ _ _ => (some "call", ()), fun _ _ => (none, ())⟩
    let reports : List Report := [⟨true, .enter ⟨16, by decide⟩ sig⟩,
      ⟨false, .enter ⟨32, by decide⟩ sig⟩, ⟨true, .enter ⟨48, by decide⟩ sig⟩]
    let p := (new () (.new true)).observeAll labeller reports
    Accounted reports p ∧ guards p.scopes = [1, 0] ∧
      (p.observe labeller ⟨true, .exit ⟨48, by decide⟩ sig⟩).depth + 1 = p.depth ∧
      (p.observe labeller ⟨true, .exit ⟨16, by decide⟩ sig⟩).depth = 0 ∧
      (p.observe labeller ⟨true, .exit ⟨16, by decide⟩ sig⟩).client.log =
        [.began 0 "call", .began 1 "call", .ended 1 "call", .ended 0 "call"] := by
  intro sig labeller reports p
  obtain ⟨haccounted, hstep⟩ := spans_accounted labeller () true reports
  obtain ⟨-, hmatched, -⟩ := hstep true ⟨48, by decide⟩ sig
  obtain ⟨-, -, hmismatched⟩ := hstep true ⟨16, by decide⟩ sig
  exact ⟨haccounted, by decide, hmatched (by decide), hmismatched (by decide), by decide⟩

end Profiler

end ForeignCall.Profile
