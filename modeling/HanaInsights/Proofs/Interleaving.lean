import HanaInsights.Schedule
set_option autoImplicit false

/-!
The periodic loop among the events around it. Ticks fall due and the shutdown completes at any time,
also while a cycle runs; the loop takes notice only when it looks, and it looks for the shutdown
first.
-/

namespace HanaInsights.Schedule

/-- Ticks and the shutdown are up to the surroundings; looking is up to the loop, and a cycle
finishes in its own time. -/
inductive Event where
  | tick
  | shutdown
  | look
  | finish
  deriving DecidableEq, Repr

inductive Phase where
  | waiting
  | running
  | over
  deriving DecidableEq, Repr

/-- A shutdown that is complete stays so, and there is one tick at most that is due. -/
structure Moment where
  ready : Ready
  phase : Phase
  started : Nat
  finished : Nat
  deriving DecidableEq, Repr

namespace Moment

def first : Moment := ⟨⟨false, false⟩, .waiting, 0, 0⟩

/-- The cycle uses up the tick that it starts with. -/
def look (m : Moment) : Moment :=
  if m.ready.shutdown then { m with phase := .over }
  else if m.ready.tick then
    { m with ready := ⟨m.ready.shutdown, false⟩, phase := .running, started := m.started + 1 }
  else m

def step (m : Moment) : Event → Option Moment
  | .tick => some { m with ready := ⟨m.ready.shutdown, true⟩ }
  | .shutdown => some { m with ready := ⟨true, m.ready.tick⟩ }
  | .look => if m.phase = .waiting then some m.look else none
  | .finish =>
    if m.phase = .running then some { m with phase := .waiting, finished := m.finished + 1 }
    else none

def run (m : Moment) (es : List Event) : Option Moment := es.foldlM step m

@[simp] theorem run_nil (m : Moment) : m.run [] = some m := rfl

theorem run_cons (m : Moment) (e : Event) (es : List Event) :
    m.run (e :: es) = (m.step e).bind fun m' => m'.run es := List.foldlM_cons

theorem run_append (m : Moment) (xs ys : List Event) :
    m.run (xs ++ ys) = (m.run xs).bind fun m' => m'.run ys := List.foldlM_append

/-- All that one event can change. -/
inductive Change (m : Moment) : Event → Moment → Prop where
  | tick : Change m .tick { m with ready := ⟨m.ready.shutdown, true⟩ }
  | shutdown : Change m .shutdown { m with ready := ⟨true, m.ready.tick⟩ }
  | stop (hphase : m.phase = .waiting) (hdown : m.ready.shutdown = true) :
      Change m .look { m with phase := .over }
  | start (hphase : m.phase = .waiting) (hready : m.ready = ⟨false, true⟩) :
      Change m .look
        { m with ready := ⟨false, false⟩, phase := .running, started := m.started + 1 }
  | pass (hphase : m.phase = .waiting) (hready : m.ready = ⟨false, false⟩) : Change m .look m
  | finish (hphase : m.phase = .running) :
      Change m .finish { m with phase := .waiting, finished := m.finished + 1 }

theorem change_of_step {m m' : Moment} {e : Event} (h : m.step e = some m') : m.Change e m' := by
  cases e with
  | tick =>
    cases h
    exact .tick
  | shutdown =>
    cases h
    exact .shutdown
  | look =>
    rw [step, Option.ite_none_right_eq_some, Option.some.injEq] at h
    obtain ⟨hphase, rfl⟩ := h
    obtain ⟨⟨shutdown, tick⟩, phase, started, finished⟩ := m
    cases shutdown with
    | true => exact .stop hphase rfl
    | false =>
      cases tick with
      | true => exact .start hphase rfl
      | false => exact .pass hphase rfl
  | finish =>
    rw [step, Option.ite_none_right_eq_some, Option.some.injEq] at h
    obtain ⟨hphase, rfl⟩ := h
    exact .finish hphase

/-- After the events that happened so far. -/
structure Kept (past : List Event) (m : Moment) : Prop where
  apart : m.started = m.finished + if m.phase = .running then 1 else 0
  down : m.ready.shutdown = true ↔ .shutdown ∈ past
  ended : m.phase = .over → m.ready.shutdown = true
  looked : m.started ≠ 0 → .look ∈ past

theorem kept_first : Kept [] first := ⟨rfl, by simp [first], nofun, by simp [first]⟩

theorem Kept.change {past : List Event} {m m' : Moment} {e : Event} (hm : Kept past m)
    (h : m.Change e m') : Kept (past ++ [e]) m' := by
  obtain ⟨hapart, hdown, hover, hlooked⟩ := hm
  cases h with
  | tick => exact ⟨hapart, by simp [hdown], hover, fun hs => by simp [hlooked hs]⟩
  | shutdown => exact ⟨hapart, by simp, fun _ => rfl, fun hs => by simp [hlooked hs]⟩
  | stop hphase hd =>
    refine ⟨?_, by simp [hdown], fun _ => hd, fun hs => by simp⟩
    rw [hphase] at hapart
    exact hapart
  | start hphase hready =>
    refine ⟨?_, by simp [← hdown, hready], nofun, fun hs => by simp⟩
    rw [hphase] at hapart
    simp only [reduceCtorEq, if_false] at hapart
    simp only [if_true]
    omega
  | pass hphase hready => exact ⟨hapart, by simp [hdown], hover, fun hs => by simp⟩
  | finish hphase =>
    refine ⟨?_, by simp [hdown], nofun, fun hs => by simp [hlooked hs]⟩
    rw [hphase] at hapart
    simp only [if_true] at hapart
    simp only [reduceCtorEq, if_false]
    omega

theorem Kept.run {past es : List Event} {m last : Moment} (hm : Kept past m)
    (h : m.run es = some last) : Kept (past ++ es) last := by
  induction es generalizing past m with
  | nil =>
    cases h
    rwa [List.append_nil]
  | cons e es ih =>
    rw [run_cons, Option.bind_eq_some_iff] at h
    obtain ⟨m', hstep, hrun⟩ := h
    have hrest := ih (hm.change (change_of_step hstep)) hrun
    rwa [List.append_assoc] at hrest

theorem run_induction {es : List Event} {P : Moment → Prop}
    (hP : ∀ m m' e, e ∈ es → P m → m.Change e m' → P m') {m last : Moment} (hm : P m)
    (h : m.run es = some last) : P last := by
  induction es generalizing m with
  | nil =>
    cases h
    exact hm
  | cons e es ih =>
    rw [run_cons, Option.bind_eq_some_iff] at h
    obtain ⟨m', hstep, hrun⟩ := h
    have hm' : P m' := hP m m' e List.mem_cons_self hm (change_of_step hstep)
    exact ih (fun m m' e he => hP m m' e (List.mem_cons_of_mem _ he)) hm' hrun

section
variable {m last : Moment} {es : List Event} (h : m.run es = some last)
include h

/-- Once the shutdown is complete no cycle starts. -/
theorem started_of_down (hdown : m.ready.shutdown = true) : last.started = m.started := by
  suffices hP : last.ready.shutdown = true ∧ last.started = m.started from hP.2
  refine run_induction (P := fun n => n.ready.shutdown = true ∧ n.started = m.started)
    (fun n n' e _ hn hchange => ?_) ⟨hdown, rfl⟩ h
  cases hchange with
  | start _ hready => simp [hready] at hn
  | shutdown => exact ⟨rfl, hn.2⟩
  | _ => exact hn

theorem running_of_unfinished (hphase : m.phase = .running) (hes : .finish ∉ es) :
    last.phase = .running := by
  refine run_induction (P := fun n => n.phase = .running) (fun n n' e he hn hchange => ?_) hphase h
  cases hchange with
  | tick => exact hn
  | shutdown => exact hn
  | start _ _ => rfl
  | stop hp _ => simp [hn] at hp
  | pass _ _ => exact hn
  | finish _ => exact absurd he hes

theorem over_of_over (hphase : m.phase = .over) : last.phase = .over := by
  refine run_induction (P := fun n => n.phase = .over) (fun n n' e _ hn hchange => ?_) hphase h
  cases hchange with
  | tick => exact hn
  | shutdown => exact hn
  | stop _ _ => rfl
  | start hp _ => simp [hn] at hp
  | pass _ _ => exact hn
  | finish hp => simp [hn] at hp

theorem not_over_of_unlooked (hphase : m.phase ≠ .over) (hes : .look ∉ es) :
    last.phase ≠ .over := by
  refine run_induction (P := fun n => n.phase ≠ .over) (fun n n' e he hn hchange => ?_) hphase h
  cases hchange with
  | tick => exact hn
  | shutdown => exact hn
  | stop _ _ => exact absurd he hes
  | start _ _ => nofun
  | pass _ _ => exact hn
  | finish _ => nofun

end

end Moment

/-! ## The loop that follows given events -/

namespace Loop

variable {σ : Type} (l : Loop σ) (looks ran : Nat) {s : σ}

theorem run_of_shutdown (h : (l.ready s).shutdown = true) :
    (l.run looks ran s).value = some (s, ran) := by
  cases looks with
  | zero =>
    rw [run, h]
    rfl
  | succ looks =>
    rw [run, h]
    rfl

theorem run_zero (h : (l.ready s).shutdown = false) : (l.run 0 ran s).value = none := by
  rw [run, h]
  rfl

theorem run_of_tick (h : l.ready s = ⟨false, true⟩) :
    (l.run (looks + 1) ran s).value = (l.run looks (ran + 1) (l.cycle s).value).value := by
  rw [run, h]
  rfl

theorem run_of_nothing (h : l.ready s = ⟨false, false⟩) :
    (l.run (looks + 1) ran s).value = (l.run looks ran (l.wait s)).value := by
  rw [run, h]
  rfl

end Loop

structure Script where
  now : Ready
  rest : List Event

def Script.toLook : Ready → List Event → Script
  | now, [] => ⟨now, []⟩
  | now, .tick :: rest => toLook ⟨now.shutdown, true⟩ rest
  | now, .shutdown :: rest => toLook ⟨true, now.tick⟩ rest
  | now, .finish :: rest => toLook now rest
  | now, .look :: rest => ⟨now, rest⟩

def scripted : Loop Script where
  ready s := s.now
  cycle s := pure (.toLook ⟨s.now.shutdown, false⟩ s.rest)
  wait s := .toLook s.now s.rest

def Moment.returned? (m : Moment) : Option Nat := if m.phase = .over then some m.finished else none

theorem returned?_of_unlooked {m last : Moment} {es : List Event} (h : m.run es = some last)
    (hphase : m.phase ≠ .over) (hes : es.count .look = 0) : last.returned? = none :=
  if_neg (Moment.not_over_of_unlooked h hphase (List.count_eq_zero.1 hes))

theorem run_scripted {past es : List Event} {m last : Moment} (hm : m.Kept past)
    (hphase : m.phase ≠ .over) (h : m.run es = some last) {looks : Nat}
    (hlooks : es.count .look = looks + 1) :
    (scripted.run looks m.started (.toLook m.ready es)).value.map (·.2) = last.returned? := by
  -- Between two looks the script only gathers what is ready, so only looks use up its length.
  induction es generalizing past m looks with
  | nil => simp at hlooks
  | cons e es ih =>
    rw [Moment.run_cons, Option.bind_eq_some_iff] at h
    obtain ⟨m', hstep, hrun⟩ := h
    have hchange := Moment.change_of_step hstep
    have hm' := hm.change hchange
    cases hchange with
    | tick => exact ih hm' hphase hrun (by simpa using hlooks)
    | shutdown => exact ih hm' hphase hrun (by simpa using hlooks)
    | finish _ => exact ih hm' nofun hrun (by simpa using hlooks)
    | stop _ hdown =>
      have hover : last.phase = .over := Moment.over_of_over hrun rfl
      have hstarted := Moment.started_of_down hrun hdown
      have hfinished : last.started = last.finished := by simpa [hover] using (hm'.run hrun).apart
      rw [Script.toLook, Loop.run_of_shutdown (s := ⟨m.ready, es⟩) scripted looks _ hdown,
        Moment.returned?, if_pos hover, ← hfinished, hstarted]
      rfl
    | start _ hready =>
      rw [List.count_cons_self, Nat.add_right_cancel_iff] at hlooks
      cases looks with
      | zero =>
        rw [Script.toLook, Loop.run_zero scripted _ (by simp [scripted, hready]),
          returned?_of_unlooked hrun nofun hlooks]
        rfl
      | succ looks =>
        rw [Script.toLook, Loop.run_of_tick (s := ⟨m.ready, es⟩) scripted looks _ hready]
        have hnext := ih hm' nofun hrun hlooks
        simpa [scripted, hready] using hnext
    | pass _ hready =>
      rw [List.count_cons_self, Nat.add_right_cancel_iff] at hlooks
      cases looks with
      | zero =>
        rw [Script.toLook, Loop.run_zero scripted _ (by simp [scripted, hready]),
          returned?_of_unlooked hrun hphase hlooks]
        rfl
      | succ looks =>
        rw [Script.toLook, Loop.run_of_nothing (s := ⟨m.ready, es⟩) scripted looks _ hready]
        exact ih hm' hphase hrun hlooks

def Ready.arrivals (r : Ready) : List Event :=
  (if r.tick then [.tick] else []) ++ if r.shutdown then [.shutdown] else []

theorem Moment.run_arrivals {m : Moment} (h : m.ready = ⟨false, false⟩) (r : Ready) :
    m.run r.arrivals = some { m with ready := r } := by
  obtain ⟨ready, phase, started, finished⟩ := m
  obtain rfl : ready = ⟨false, false⟩ := h
  obtain ⟨shutdown, tick⟩ := r
  cases shutdown <;> cases tick <;> rfl

/-- Whatever happens in the cycles of a loop and between them, its run is one among such events. -/
theorem exists_run_of_loop {σ : Type} (l : Loop σ) {looks ran n : Nat} {s final : σ}
    (h : (l.run looks ran s).value = some (final, n)) :
    ∃ es, (⟨l.ready s, .waiting, ran, ran⟩ : Moment).run es =
      some ⟨l.ready final, .over, n, n⟩ := by
  -- The loop looks, and what it finds ready the next time has come about by then.
  induction looks generalizing ran s with
  | zero =>
    cases hdown : (l.ready s).shutdown with
    | false => simp [Loop.run_zero l ran hdown] at h
    | true =>
      rw [Loop.run_of_shutdown l 0 ran hdown] at h
      cases h
      refine ⟨[.look], ?_⟩
      simp [Moment.run_cons, Moment.step, Moment.look, hdown]
  | succ looks ih =>
    rcases hready : l.ready s with ⟨shutdown, tick⟩
    cases shutdown with
    | true =>
      rw [Loop.run_of_shutdown l (looks + 1) ran (by rw [hready])] at h
      cases h
      exact ⟨[.look], by rw [hready]; rfl⟩
    | false =>
      cases tick with
      | true =>
        rw [Loop.run_of_tick l looks ran hready] at h
        obtain ⟨es, hes⟩ := ih h
        refine ⟨.look :: ((l.ready (l.cycle s).value).arrivals ++ .finish :: es), ?_⟩
        have hstep : (⟨⟨false, true⟩, .waiting, ran, ran⟩ : Moment).step .look =
            some ⟨⟨false, false⟩, .running, ran + 1, ran⟩ := rfl
        rw [Moment.run_cons, hstep, Option.bind_some, Moment.run_append,
          Moment.run_arrivals rfl, Option.bind_some]
        exact hes
      | false =>
        rw [Loop.run_of_nothing l looks ran hready] at h
        obtain ⟨es, hes⟩ := ih h
        refine ⟨.look :: ((l.ready (l.wait s)).arrivals ++ es), ?_⟩
        have hstep : (⟨⟨false, false⟩, .waiting, ran, ran⟩ : Moment).step .look =
            some ⟨⟨false, false⟩, .waiting, ran, ran⟩ := rfl
        rw [Moment.run_cons, hstep, Option.bind_some, Moment.run_append,
          Moment.run_arrivals rfl, Option.bind_some]
        exact hes

/-! ## Every order of events -/

/-- What holds around one event of a run, between what came before it and what comes after it. -/
structure Orderly (before : List Event) (m : Moment) (e : Event) (m' : Moment)
    (after : List Event) (last : Moment) : Prop where
  apart : m.started = m.finished + if m.phase = .running then 1 else 0
  starts : m.started < m'.started →
    e = .look ∧ m.phase = .waiting ∧ m'.started = m.started + 1 ∧ .shutdown ∉ before
  stops : e = .look → .shutdown ∈ before → m'.phase = .over
  last_cycle : e = .shutdown → last.started = m.started
  completed : m.phase = .running → last.phase = .over → .finish ∈ e :: after
  free_to_stop : m.phase = .running → .shutdown ∈ before →
    m.run [.finish, .look] = some ⟨m.ready, .over, m.started, m.started⟩

theorem Moment.Kept.orderly {before after : List Event} {m m' last : Moment} {e : Event}
    (hm : m.Kept before) (hstep : m.step e = some m') (hrun : m'.run after = some last) :
    Orderly before m e m' after last := by
  have hall : m.run (e :: after) = some last := by
    rw [Moment.run_cons, hstep, Option.bind_some, hrun]
  refine ⟨hm.apart, fun hlt => ?_, fun he hdown => ?_, fun he => ?_, fun hphase hover => ?_,
    fun hphase hdown => ?_⟩
  · cases Moment.change_of_step hstep with
    | start hphase hready =>
      refine ⟨rfl, hphase, rfl, fun hdown => ?_⟩
      rw [← hm.down, hready] at hdown
      cases hdown
    | _ => exact absurd hlt (Nat.lt_irrefl _)
  · rw [← hm.down] at hdown
    cases Moment.change_of_step hstep with
    | stop _ _ => rfl
    | start _ hready => simp [hready] at hdown
    | pass _ hready => simp [hready] at hdown
    | _ => cases he
  · subst he
    cases Moment.change_of_step hstep with
    | shutdown =>
      have hstarted := Moment.started_of_down hrun rfl
      exact hstarted
  · refine Decidable.byContradiction fun hnot => ?_
    have hrunning := Moment.running_of_unfinished hall hphase hnot
    rw [hover] at hrunning
    cases hrunning
  · rw [← hm.down] at hdown
    have hapart := hm.apart
    rw [hphase, if_pos rfl] at hapart
    simp [Moment.run_cons, Moment.step, Moment.look, hphase, hdown, hapart]

/-- The loop over any events takes one cycle after the other. None starts once the shutdown is
complete, the one that runs by then comes to its end and is the last, and the next look ends the
loop, which returns how many cycles were started. The run of any loop is one over such events. -/
theorem loop_stops_at_first_look :
    (∀ es last, Moment.first.run es = some last →
      (∀ before e after, es = before ++ e :: after → ∃ m m',
        Moment.first.run before = some m ∧ m.step e = some m' ∧ m'.run after = some last ∧
        Orderly before m e m' after last) ∧
      (last.phase = .over → last.finished = last.started ∧ .shutdown ∈ es) ∧
      (∀ before after, es = before ++ after → .shutdown ∈ before → .look ∉ before →
        last.started = 0) ∧
      ∀ looks, es.count .look = looks + 1 →
        (scripted.run looks 0 (.toLook ⟨false, false⟩ es)).value.map (·.2) = last.returned?) ∧
    ∀ (σ : Type) (l : Loop σ) looks s final n, (l.run looks 0 s).value = some (final, n) →
      ∃ es, Moment.first.run es = some ⟨l.ready final, .over, n, n⟩ := by
  refine ⟨fun es last h => ⟨fun before e after hes => ?_, fun hover => ?_,
    fun before after hes hdown hlook => ?_, fun looks hlooks => ?_⟩,
    fun σ l looks s final n h => ?_⟩
  · rw [hes, Moment.run_append, Option.bind_eq_some_iff] at h
    obtain ⟨m, hbefore, h⟩ := h
    rw [Moment.run_cons, Option.bind_eq_some_iff] at h
    obtain ⟨m', hstep, hrun⟩ := h
    exact ⟨m, m', hbefore, hstep, hrun, (Moment.kept_first.run hbefore).orderly hstep hrun⟩
  · have hkept := Moment.kept_first.run h
    have hapart := hkept.apart
    rw [hover] at hapart
    exact ⟨hapart.symm, hkept.down.1 (hkept.ended hover)⟩
  · rw [hes, Moment.run_append, Option.bind_eq_some_iff] at h
    obtain ⟨m, hbefore, hrun⟩ := h
    have hkept := Moment.kept_first.run hbefore
    have hstarted : m.started = 0 := Decidable.byContradiction fun hne => hlook (hkept.looked hne)
    rw [Moment.started_of_down hrun (hkept.down.2 hdown), hstarted]
  · exact run_scripted Moment.kept_first nofun h hlooks
  · obtain ⟨es, hes⟩ := exists_run_of_loop l h
    refine ⟨(l.ready s).arrivals ++ es, ?_⟩
    rw [Moment.run_append, Moment.run_arrivals rfl, Option.bind_some]
    exact hes

theorem loop_stopped_during_second_cycle :
    let es : List Event :=
      [.look, .tick, .look, .finish, .tick, .look, .tick, .shutdown, .finish, .look]
    Moment.first.run es = some ⟨⟨true, true⟩, .over, 2, 2⟩ ∧
    (scripted.run 3 0 (.toLook ⟨false, false⟩ es)).value.map (·.2) = some 2 := by
  intro es
  have hrun : Moment.first.run es = some ⟨⟨true, true⟩, .over, 2, 2⟩ := rfl
  exact ⟨hrun, (loop_stops_at_first_look.1 es _ hrun).2.2.2 3 rfl⟩

end HanaInsights.Schedule
