import ForeignCall.Proofs.Profile.Spans

namespace ForeignCall.Profile

section Extends

def touched (log : List Entry) : List Nat :=
  begun log ++ ended log

theorem mem_touched_append {xs ys : List Entry} {span : Nat} :
    span ∈ touched (xs ++ ys) ↔ span ∈ touched xs ∨ span ∈ touched ys := by
  simp only [touched, begun, ended, List.filterMap_append, List.mem_append]
  tauto

theorem Scope.touched_opening (scope : Scope) : touched scope.opening = scope.span.toList := by
  obtain ⟨callee, label, span⟩ := scope
  cases span <;> rfl

theorem Scope.touched_closing (scope : Scope) : touched scope.closing = scope.span.toList := by
  obtain ⟨callee, label, span⟩ := scope
  cases span <;> rfl

structure Client.Extends (before after : Client) (added : List Entry) : Prop where
  log_eq : after.log = before.log ++ added
  spans_le : before.spans ≤ after.spans
  new : ∀ span ∈ touched added, before.spans ≤ span

variable {first second third : Client} {xs ys : List Entry}

theorem Client.Extends.refl (client : Client) : client.Extends client [] :=
  ⟨(List.append_nil _).symm, Nat.le_refl _, nofun⟩

theorem Client.Extends.trans (h : first.Extends second xs) (h' : second.Extends third ys) :
    first.Extends third (xs ++ ys) where
  log_eq := by rw [h'.log_eq, h.log_eq, List.append_assoc]
  spans_le := Nat.le_trans h.spans_le h'.spans_le
  new span hspan := by
    rcases mem_touched_append.1 hspan with hxs | hys
    · exact h.new span hxs
    · exact Nat.le_trans h.spans_le (h'.new span hys)

theorem Client.Extends.close (h : first.Extends second xs) {scope : Scope} (running : Bool)
    (hscope : ∀ span ∈ scope.span, first.spans ≤ span) :
    first.Extends ⟨running, second.spans, second.log ++ scope.closing⟩ (xs ++ scope.closing) where
  log_eq := by rw [h.log_eq, List.append_assoc]
  spans_le := h.spans_le
  new span hspan := by
    rw [mem_touched_append, scope.touched_closing, Option.mem_toList] at hspan
    exact hspan.elim (h.new span) (hscope span)

end Extends

namespace Profiler

variable {ρ : Type} {labeller : Labeller ρ} {p : Profiler ρ}

def Report.exited? (report : Report) : Option Address :=
  match report.event with
  | .exit callee _ => some callee
  | .lookup _ _ | .enter _ _ => none

inductive WellNested : List Report → Prop where
  | nil : WellNested []
  | call {running running' : Bool} {callee : Address} {sig sig' : Signature}
      {inner rest : List Report} (inside : WellNested inner) (after : WellNested rest) :
      WellNested (⟨running, .enter callee sig⟩ :: (inner ++ ⟨running', .exit callee sig'⟩ :: rest))

section Nesting

def nesting (reports : List Report) : Int :=
  reports.countP (·.entered?.isSome) - reports.countP (·.exited?.isSome)

theorem nesting_append (xs ys : List Report) : nesting (xs ++ ys) = nesting xs + nesting ys := by
  simp only [nesting, List.countP_append]
  omega

theorem nesting_enter (running : Bool) (callee : Address) (sig : Signature)
    (reports : List Report) :
    nesting (⟨running, .enter callee sig⟩ :: reports) = nesting reports + 1 := by
  simp only [nesting, List.countP_cons, Report.entered?, Report.exited?, Option.isSome_some,
    Option.isSome_none, if_true, Bool.false_eq_true, if_false]
  omega

theorem nesting_exit (running : Bool) (callee : Address) (sig : Signature)
    (reports : List Report) :
    nesting (⟨running, .exit callee sig⟩ :: reports) = nesting reports - 1 := by
  simp only [nesting, List.countP_cons, Report.entered?, Report.exited?, Option.isSome_some,
    Option.isSome_none, if_true, Bool.false_eq_true, if_false]
  omega

theorem WellNested.nesting_eq {reports : List Report} (h : WellNested reports) :
    nesting reports = 0 := by
  induction h with
  | nil => rfl
  | call _ _ inside after =>
      rw [nesting_enter, nesting_append, nesting_exit, inside, after]
      rfl

end Nesting

section Places

variable {reports before after : List Report}

theorem places_call {enter exit report : Report} {inner rest : List Report}
    (h : enter :: (inner ++ exit :: rest) = before ++ report :: after) :
    (before = [] ∧ enter = report) ∨
      (∃ past future, before = enter :: past ∧ inner = past ++ report :: future) ∨
      (before = enter :: inner ∧ exit = report) ∨
      ∃ past, before = enter :: (inner ++ exit :: past) ∧ rest = past ++ report :: after := by
  cases before with
  | nil => exact .inl ⟨rfl, (List.cons.inj h).1⟩
  | cons first before =>
      obtain ⟨rfl, hrest⟩ := List.cons.inj h
      refine .inr ?_
      rcases List.append_eq_append_iff.1 hrest with ⟨past, rfl, hafter⟩ | ⟨future, rfl, hafter⟩
      · cases past with
        | nil =>
            obtain ⟨rfl, -⟩ := List.cons.inj hafter
            exact .inr (.inl ⟨by rw [List.append_nil], rfl⟩)
        | cons next past =>
            obtain ⟨rfl, rfl⟩ := List.cons.inj hafter
            exact .inr (.inr ⟨past, rfl, rfl⟩)
      · cases future with
        | nil =>
            obtain ⟨rfl, -⟩ := List.cons.inj hafter
            exact .inr (.inl ⟨by rw [List.append_nil], rfl⟩)
        | cons next future =>
            obtain ⟨rfl, -⟩ := List.cons.inj hafter
            exact .inl ⟨before, future, rfl, rfl⟩

def Awaits (callee : Address) (reports : List Report) : Prop :=
  ∃ earlier running sig inner,
    reports = earlier ++ ⟨running, .enter callee sig⟩ :: inner ∧ WellNested inner

theorem Awaits.append {callee : Address} (h : Awaits callee reports) (before : List Report) :
    Awaits callee (before ++ reports) := by
  obtain ⟨earlier, running, sig, inner, rfl, hinner⟩ := h
  exact ⟨before ++ earlier, running, sig, inner, (List.append_assoc ..).symm, hinner⟩

theorem WellNested.awaits (h : WellNested reports) {running : Bool} {callee : Address}
    {sig : Signature} (hsplit : reports = before ++ ⟨running, .exit callee sig⟩ :: after) :
    Awaits callee before := by
  induction h generalizing before after with
  | nil => cases before <;> cases hsplit
  | @call entering exiting other given taken inner _ inside _ ihinside ihafter =>
      rcases places_call hsplit with
        ⟨-, heq⟩ | ⟨past, future, rfl, hpast⟩ | ⟨rfl, heq⟩ | ⟨past, rfl, hpast⟩
      · cases heq
      · exact (ihinside hpast).append [_]
      · cases heq
        exact ⟨[], entering, given, inner, rfl, inside⟩
      · have hawaits := (ihafter hpast).append
          (⟨entering, .enter other given⟩ :: (inner ++ [⟨exiting, .exit other taken⟩]))
        rwa [List.cons_append, List.append_assoc] at hawaits

end Places

section Run

variable {running : Bool} {callee : Address} {sig : Signature} {span : Nat}
  {inner reports : List Report}

theorem observeAll_cons (p : Profiler ρ) (report : Report) (reports : List Report) :
    p.observeAll labeller (report :: reports) =
      (p.observe labeller report).observeAll labeller reports :=
  rfl

theorem observeAll_append (p : Profiler ρ) (xs ys : List Report) :
    p.observeAll labeller (xs ++ ys) = (p.observeAll labeller xs).observeAll labeller ys :=
  List.foldl_append

def Restores (labeller : Labeller ρ) (reports : List Report) : Prop :=
  ∀ p : Profiler ρ, (p.observeAll labeller reports).scopes = p.scopes

theorem observeAll_call_append (p : Profiler ρ) (enter exit : Report) (inner rest : List Report) :
    p.observeAll labeller (enter :: (inner ++ exit :: rest)) =
      (p.observeAll labeller (enter :: (inner ++ [exit]))).observeAll labeller rest := by
  rw [List.append_cons, ← List.cons_append, observeAll_append]

def scopeOf (labeller : Labeller ρ) (p : Profiler ρ) (running : Bool) (callee : Address)
    (sig : Signature) : Scope :=
  ⟨callee, (labeller.call callee sig p.labels).1.getD (addressLabel callee sig),
    if running then some p.client.spans else none⟩

theorem observe_enter (p : Profiler ρ) (running : Bool) (callee : Address) (sig : Signature) :
    let scope := p.scopeOf labeller running callee sig
    p.observe labeller ⟨running, .enter callee sig⟩ =
      ⟨(labeller.call callee sig p.labels).2, scope :: p.scopes,
        ⟨running, p.client.spans + scope.span.toList.length, p.client.log ++ scope.opening⟩⟩ := by
  cases running with
  | true => rfl
  | false => simp [observe, switch, receive, enter, Client.beginSpan, scopeOf, Scope.opening]

theorem observe_exit (labeller : Labeller ρ) {scope : Scope} {scopes : List Scope}
    (h : p.scopes = scope :: scopes) (running : Bool) (sig : Signature) :
    p.observe labeller ⟨running, .exit scope.callee sig⟩ =
      ⟨p.labels, scopes, ⟨running, p.client.spans, p.client.log ++ scope.closing⟩⟩ := by
  have hexit : (p.switch running).exit scope.callee = _ := exit_of_innermost h rfl
  rw [observe, receive, hexit, close, List.foldl_cons, List.foldl_nil, Client.endSpan_eq]
  rfl

theorem mem_span_scopeOf (h : span ∈ (p.scopeOf labeller running callee sig).span) :
    span = p.client.spans := by
  cases running with
  | true => exact (Option.some.inj h).symm
  | false => cases h

theorem lt_spans_enter (h : span ∈ (p.scopeOf labeller running callee sig).span) :
    span < (p.observe labeller ⟨running, .enter callee sig⟩).client.spans := by
  rw [observe_enter, Option.mem_def.1 h, mem_span_scopeOf h]
  exact Nat.lt_succ_self _

theorem extends_enter (p : Profiler ρ) (running : Bool) (callee : Address) (sig : Signature) :
    p.client.Extends (p.observe labeller ⟨running, .enter callee sig⟩).client
      (p.scopeOf labeller running callee sig).opening := by
  rw [observe_enter]
  refine ⟨rfl, Nat.le_add_right _ _, fun span hspan => ?_⟩
  rw [Scope.touched_opening, Option.mem_toList] at hspan
  exact (mem_span_scopeOf hspan).ge

theorem Restores.scopes_inside (h : Restores labeller inner) (p : Profiler ρ) (running : Bool)
    (callee : Address) (sig : Signature) :
    (p.observeAll labeller (⟨running, .enter callee sig⟩ :: inner)).scopes =
      p.scopeOf labeller running callee sig :: p.scopes := by
  rw [observeAll_cons, h, observe_enter]

theorem Restores.observeAll_call (h : Restores labeller inner) (p : Profiler ρ)
    (running running' : Bool) (callee : Address) (sig sig' : Signature) :
    let inside := p.observeAll labeller (⟨running, .enter callee sig⟩ :: inner)
    p.observeAll labeller
        (⟨running, .enter callee sig⟩ :: (inner ++ [⟨running', .exit callee sig'⟩])) =
      ⟨inside.labels, p.scopes, ⟨running', inside.client.spans,
        inside.client.log ++ (p.scopeOf labeller running callee sig).closing⟩⟩ := by
  intro inside
  rw [← List.cons_append, observeAll_append]
  exact observe_exit labeller (h.scopes_inside p running callee sig) running' sig'

theorem WellNested.restores (h : WellNested reports) : Restores labeller reports := by
  intro p
  induction h generalizing p with
  | nil => rfl
  | call _ _ inside after =>
      rw [observeAll_call_append, after, Restores.observeAll_call inside]

theorem Restores.extends_call (h : Restores labeller inner) (p : Profiler ρ)
    (running running' : Bool) (callee : Address) (sig sig' : Signature) {added : List Entry}
    (hinner : (p.observe labeller ⟨running, .enter callee sig⟩).client.Extends
      (p.observeAll labeller (⟨running, .enter callee sig⟩ :: inner)).client added) :
    let scope := p.scopeOf labeller running callee sig
    p.client.Extends (p.observeAll labeller
      (⟨running, .enter callee sig⟩ :: (inner ++ [⟨running', .exit callee sig'⟩]))).client
      (scope.opening ++ added ++ scope.closing) := by
  intro scope
  have hspan : ∀ span ∈ scope.span, p.client.spans ≤ span := fun _ h => (mem_span_scopeOf h).ge
  rw [h.observeAll_call]
  exact ((p.extends_enter running callee sig).trans hinner).close running' hspan

theorem WellNested.extends (h : WellNested reports) (p : Profiler ρ) :
    ∃ added, p.client.Extends (p.observeAll labeller reports).client added := by
  induction h generalizing p with
  | nil => exact ⟨[], .refl p.client⟩
  | @call running running' callee sig sig' inner rest inside _ ihinside ihafter =>
      obtain ⟨xs, hxs⟩ := ihinside (p.observe labeller ⟨running, .enter callee sig⟩)
      have hcall := inside.restores.extends_call p running running' callee sig sig' hxs
      obtain ⟨ys, hys⟩ := ihafter (p.observeAll labeller
        (⟨running, .enter callee sig⟩ :: (inner ++ [⟨running', .exit callee sig'⟩])))
      rw [observeAll_call_append]
      exact ⟨_, hcall.trans hys⟩

end Run

structure Matched (labeller : Labeller ρ) (here : Profiler ρ) (enter : Report)
    (inner : List Report) (exit : Report) (scope : Scope) : Prop where
  entered : enter.entered? = some scope.callee
  exited : exit.exited? = some scope.callee
  held : scope.span = if enter.running then some here.client.spans else none
  opened : (here.observe labeller enter).scopes = scope :: here.scopes
  begun : (here.observe labeller enter).client.log = here.client.log ++ scope.opening
  innermost : (here.observeAll labeller (enter :: inner)).scopes = scope :: here.scopes
  untouched : ∃ added, (here.observeAll labeller (enter :: inner)).client.log =
    (here.observe labeller enter).client.log ++ added ∧ ∀ span ∈ scope.span, span ∉ touched added
  closed : (here.observeAll labeller (enter :: (inner ++ [exit]))).scopes = here.scopes
  ended : (here.observeAll labeller (enter :: (inner ++ [exit]))).client.log =
    (here.observeAll labeller (enter :: inner)).client.log ++ scope.closing

section Matched

variable {reports before after : List Report}

theorem WellNested.matched {inner : List Report} (h : WellNested inner) (here : Profiler ρ)
    (running running' : Bool) (callee : Address) (sig sig' : Signature) :
    Matched labeller here ⟨running, .enter callee sig⟩ inner ⟨running', .exit callee sig'⟩
      (here.scopeOf labeller running callee sig) where
  entered := rfl
  exited := rfl
  held := rfl
  opened := by rw [observe_enter]
  begun := by rw [observe_enter]
  innermost := h.restores.scopes_inside here running callee sig
  untouched := by
    obtain ⟨added, hadded⟩ := h.extends (here.observe labeller ⟨running, .enter callee sig⟩)
    refine ⟨added, hadded.log_eq, fun span hspan htouched => ?_⟩
    exact absurd (hadded.new span htouched) (Nat.not_le.2 (lt_spans_enter hspan))
  closed := by rw [h.restores.observeAll_call]
  ended := by rw [h.restores.observeAll_call]

theorem WellNested.exists_standing (h : WellNested reports) {report : Report}
    (hsplit : reports = before ++ report :: after) (p : Profiler ρ) :
    ∃ scopes, (p.observeAll labeller before).scopes = scopes ++ p.scopes ∧
      (scopes.length : Int) = nesting before := by
  induction h generalizing before after p with
  | nil => cases before <;> cases hsplit
  | @call running running' callee sig sig' inner rest inside _ ihinside ihafter =>
      rcases places_call hsplit with
        ⟨rfl, -⟩ | ⟨past, future, rfl, hpast⟩ | ⟨rfl, -⟩ | ⟨past, rfl, hpast⟩
      · exact ⟨[], rfl, rfl⟩
      · obtain ⟨scopes, hscopes, hlength⟩ :=
          ihinside hpast (p.observe labeller ⟨running, .enter callee sig⟩)
        refine ⟨scopes ++ [p.scopeOf labeller running callee sig], ?_, ?_⟩
        · rw [observeAll_cons, hscopes, observe_enter, List.append_assoc]
          rfl
        · rw [nesting_enter, ← hlength, List.length_append]
          rfl
      · refine ⟨[p.scopeOf labeller running callee sig], ?_, ?_⟩
        · exact inside.restores.scopes_inside p running callee sig
        · rw [nesting_enter, inside.nesting_eq]
          rfl
      · obtain ⟨scopes, hscopes, hlength⟩ := ihafter hpast (p.observeAll labeller
          (⟨running, .enter callee sig⟩ :: (inner ++ [⟨running', .exit callee sig'⟩])))
        refine ⟨scopes, ?_, ?_⟩
        · rw [observeAll_call_append, hscopes, inside.restores.observeAll_call]
        · rw [nesting_enter, nesting_append, nesting_exit, inside.nesting_eq, hlength]
          omega

theorem matched_in_step (labeller : Labeller ρ) (p : Profiler ρ) (h : WellNested reports) :
    (p.observeAll labeller reports).scopes = p.scopes ∧
    (∀ before after, reports = before ++ after →
      p.scopes <:+ (p.observeAll labeller before).scopes ∧
      ((p.observeAll labeller before).depth : Int) = p.depth + nesting before) ∧
    ∀ before exit after, reports = before ++ exit :: after → exit.exited?.isSome →
      ∃ earlier enter inner scope, before = earlier ++ enter :: inner ∧ WellNested inner ∧
        Matched labeller (p.observeAll labeller earlier) enter inner exit scope := by
  refine ⟨h.restores p, ?_, ?_⟩
  · intro before after hsplit
    have hstanding : ∃ scopes, (p.observeAll labeller before).scopes = scopes ++ p.scopes ∧
        (scopes.length : Int) = nesting before := by
      cases after with
      | nil =>
          rw [List.append_nil] at hsplit
          subst hsplit
          exact ⟨[], h.restores p, h.nesting_eq.symm⟩
      | cons report after => exact h.exists_standing hsplit p
    obtain ⟨scopes, hscopes, hlength⟩ := hstanding
    rw [depth, hscopes, ← hlength, List.length_append]
    refine ⟨List.suffix_append scopes p.scopes, ?_⟩
    rw [depth]
    omega
  · rintro before ⟨running', event⟩ after hsplit hexit
    cases event with
    | lookup shape outcome => cases hexit
    | enter callee sig => cases hexit
    | exit callee sig' =>
        obtain ⟨earlier, running, sig, inner, rfl, hinner⟩ := h.awaits hsplit
        exact ⟨earlier, _, inner, _, rfl, hinner, hinner.matched _ running running' callee sig sig'⟩

theorem matched_in_step_recursive :
    let sig : Signature := ⟨[], .void, by decide⟩
    let callee : Address := ⟨16, by decide⟩
    let labeller : Labeller Unit := ⟨fun _ _ _ => (some "call", ()), fun _ _ => (none, ())⟩
    let p := (new () (.new true)).observe labeller ⟨true, .enter callee sig⟩
    let entered : List Report := [⟨true, .enter callee sig⟩, ⟨false, .enter callee sig⟩]
    let inner : List Report := [⟨false, .enter callee sig⟩, ⟨true, .exit callee sig⟩]
    let reports : List Report := ⟨true, .enter callee sig⟩ :: (inner ++ [⟨false, .exit callee sig⟩])
    WellNested reports ∧ (p.observeAll labeller reports).scopes = p.scopes ∧
      ((p.observeAll labeller entered).depth : Int) = p.depth + 2 ∧
      (∃ earlier enter inner scope, entered = earlier ++ enter :: inner ∧ WellNested inner ∧
        Matched labeller (p.observeAll labeller earlier) enter inner ⟨true, .exit callee sig⟩
          scope) ∧
      (p.observeAll labeller reports).client.log =
        [.began 0 "call", .began 1 "call", .ended 1 "call"] := by
  intro sig callee labeller p entered inner reports
  have hinner : WellNested inner := .call .nil .nil
  have h : WellNested reports := .call hinner .nil
  obtain ⟨hscopes, hduring, hexits⟩ := matched_in_step labeller p h
  exact ⟨h, hscopes, (hduring entered _ rfl).2, hexits entered _ _ rfl rfl, by decide⟩

end Matched

end Profiler

end ForeignCall.Profile
