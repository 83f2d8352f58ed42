import Rebpf.RefreshProcess

namespace Rebpf

open Lib WatchReload

section

variable {c : Crates} {e : Endian} {alloc : Nat → Option (Nat → UInt8)}
  {programs : TaskId → Option Dentry × UInt32}

namespace Processes

variable {s t : Processes} {w : WatchReload}

/-- The sockets that are still to be visited exist. -/
def InRange (s : Processes) : Prop :=
  ∀ sweep, s.sweep = some sweep → ∀ i ∈ sweep.left, i < s.main.daemon.sockets.length

/-- Going on without anything from outside, an iteration ends with all marks swept. -/
def Ends (c : Crates) (e : Endian) (alloc : Nat → Option (Nat → UInt8))
    (programs : TaskId → Option Dentry × UInt32) (s : Processes) : Prop :=
  ∃ events t, Run (Processes.step c e alloc programs) (fun _ _ => True) s events t ∧
    t.main.stage = .idle ∧ t.link.caller = .idle ∧ t.swept = s.asked ∧ t.asked = s.asked

theorem Ends.after {m : Processes} {events : List ProcessEvent} (h : m.Ends c e alloc programs)
    (run : Run (Processes.step c e alloc programs) (fun _ _ => True) s events m)
    (asked : m.asked = s.asked) : s.Ends c e alloc programs := by
  obtain ⟨events', t, rest, hidle, hcaller, hswept, hasked⟩ := h
  exact ⟨_, t, run.append rest, hidle, hcaller, hswept.trans asked, hasked.trans asked⟩

/-- The bytes that are moved lead the processes as they lead the stream. -/
theorem run_bytes {link : Exchange UInt8} {events : List (ExchangeEvent UInt8)}
    (moves : ∀ event ∈ events, event.Moves)
    (run : Run (Exchange.step 4 4) (fun _ _ => True) s.link events link) :
    Run (Processes.step c e alloc programs) (fun _ _ => True) s (events.map .bytes)
      { s with link } := by
  refine run.follow (f := fun link => ({ s with link } : Processes))
    fun link event hevent t taken => ?_
  have hmoves := moves event hevent
  cases event with
  | send | take | reply | get =>
    simp only [Processes.step, Processes.bytes, taken]
    rfl
  | call | answer | back | hangUp | eof | crash => cases hmoves

theorem ends_of_swept {plan : Plan} {bpf : BpfConfig} {p : Progress UInt8} {reply : List UInt8}
    (loaded : s.main.stage = .loading plan bpf []) (hp : p = .answered reply ∨ p = .returned reply)
    (link : s.link.Carries 4 4 p) (there : s.link.caller ≠ .gone) (served : s.link.server ≠ .gone)
    (swept : s.swept = s.asked) : s.Ends c e alloc programs := by
  obtain ⟨events, link', run, moves, carries, there', _⟩ :=
    link.delivered (by decide) (by decide) there served
  have harrived : p.arrived = .returned reply := by obtain rfl | rfl := hp <;> rfl
  rw [harrived] at carries
  have hback : ∃ done, link'.back = some done ∧ done.caller = .idle := by
    cases carries with
    | returned hcaller =>
      obtain rfl := hcaller.resolve_right there'
      exact ⟨_, rfl, rfl⟩
    | gone => exact absurd rfl there'
  obtain ⟨done, hdone, hidle⟩ := hback
  have finished : ∃ t, Processes.finish { s with link := link' } = some t ∧ t.main.stage = .idle ∧
      t.link = done ∧ t.swept = s.swept ∧ t.asked = s.asked := by
    simp only [Processes.finish, loaded, hdone]
    exact ⟨_, rfl, rfl, rfl, rfl, rfl⟩
  obtain ⟨t, hfinish, hstage, hlink, hswept, hasked⟩ := finished
  refine Ends.after (m := { s with link := link' }) ⟨[.finish], t, .single trivial hfinish, hstage,
    ?_, hswept.trans swept, hasked⟩ (run_bytes moves run) rfl
  rw [hlink]
  exact hidle

variable (c e alloc programs) in
/-- The iterator comes to its end, and the sockets it has reported are marked. -/
theorem sweep_ends {mark : UInt32} {left reported : List Nat}
    (sweep : s.sweep = some ⟨mark, left, reported⟩) (range : s.InRange) :
    ∃ events t, Run (Processes.step c e alloc programs) (fun _ _ => True) s events t ∧
      t.sweep = some ⟨mark, [], []⟩ ∧ t.link = s.link ∧ t.main.stage = s.main.stage ∧
      t.swept = s.swept ∧ t.asked = s.asked := by
  induction htodo : 2 * left.length + reported.length using Nat.strong_induction_on
    generalizing s left reported with
  | _ todo ih =>
    have next : ∀ event {mid left' reported'}, s.step c e alloc programs event = some mid →
        mid.sweep = some ⟨mark, left', reported'⟩ → mid.InRange → mid.link = s.link →
        mid.main.stage = s.main.stage → mid.swept = s.swept → mid.asked = s.asked →
        2 * left'.length + reported'.length < todo →
        ∃ events t, Run (Processes.step c e alloc programs) (fun _ _ => True) s events t ∧
          t.sweep = some ⟨mark, [], []⟩ ∧ t.link = s.link ∧ t.main.stage = s.main.stage ∧
          t.swept = s.swept ∧ t.asked = s.asked := by
      intro event mid left' reported' taken hsweep hrange hlink hstage hswept hasked hless
      obtain ⟨events, t, run, hdone, hl, hst, hsw, has⟩ := ih _ hless hsweep hrange rfl
      exact ⟨event :: events, t, .cons trivial taken run, hdone, hl.trans hlink, hst.trans hstage,
        hsw.trans hswept, has.trans hasked⟩
    cases reported with
    | cons i reported =>
      have taken : s.setMark i = some { s with
          main := { s.main with daemon := { s.main.daemon with
            sockets := s.main.daemon.sockets.modify i ({ · with mark := mark }) } }
          sweep := some ⟨mark, left, reported⟩ } := by
        simp [Processes.setMark, sweep]
      refine next (.setMark i) taken rfl ?_ rfl rfl rfl rfl (by
        simp only [List.length_cons] at htodo
        omega)
      rintro _ ⟨⟩ j hj
      have hlt := range _ sweep j hj
      simpa using hlt
    | nil =>
      cases left with
      | nil => exact ⟨[], s, .nil, sweep, rfl, rfl, rfl, rfl⟩
      | cons i left =>
        have hlt := range _ sweep i List.mem_cons_self
        obtain ⟨sock, hsock⟩ : ∃ sock, s.main.daemon.sockets[i]? = some sock :=
          ⟨_, List.getElem?_eq_getElem hlt⟩
        obtain ⟨mid, taken, report, hmid, hlink, hstage, hswept, hasked, hlength⟩ :
            ∃ mid, s.report e alloc programs i = some mid ∧ ∃ report : Bool,
              mid.sweep = some ⟨mark, left, if report then [i] else []⟩ ∧ mid.link = s.link ∧
              mid.main.stage = s.main.stage ∧ mid.swept = s.swept ∧ mid.asked = s.asked ∧
              mid.main.daemon.sockets = s.main.daemon.sockets := by
          simp only [Processes.report, sweep, hsock, Option.bind_eq_bind, Option.bind_some,
            List.erase_cons_head]
          exact ⟨_, rfl, _, rfl, rfl, rfl, rfl, rfl, rfl⟩
        refine next (.report i) taken hmid ?_ hlink hstage hswept hasked ?_
        · intro sweep' hsome j hj
          cases Option.some.inj (hmid.symm.trans hsome)
          rw [hlength]
          exact range _ sweep j (List.mem_cons_of_mem _ hj)
        · rw [List.length_cons, List.length_nil] at htodo
          have hone : (if report then [i] else []).length ≤ 1 := by split <;> simp
          omega

theorem ends_of_sweeping {plan : Plan} {bpf : BpfConfig} {mark : UInt32} {left reported : List Nat}
    {request : List UInt8} (loaded : s.main.stage = .loading plan bpf [])
    (link : s.link.Carries 4 4 (.working request)) (there : s.link.caller ≠ .gone)
    (served : s.link.server ≠ .gone) (sweep : s.sweep = some ⟨mark, left, reported⟩)
    (range : s.InRange) (swept : s.swept = s.asked) : s.Ends c e alloc programs := by
  obtain ⟨events, mid, run, hdone, hlink, hstage, hswept, hasked⟩ :=
    sweep_ends c e alloc programs sweep range
  have answering : ∃ done, mid.link.answer (wordBytes e 0) = some done ∧ done.caller ≠ .gone ∧
      done.server ≠ .gone := by
    rw [hlink]
    cases hs : s.link with
    | mk caller up server down =>
      rw [hs] at link there served
      cases link with
      | working => exact ⟨_, rfl, there, by simp⟩
      | crashed => exact absurd rfl served
      | gone => exact absurd rfl there
  obtain ⟨done, hdone', hthere, hserved⟩ := answering
  have hcarries : mid.link.Carries 4 4 (.working request) := by
    rw [hlink]
    exact link
  obtain ⟨_, _, hnext⟩ := hcarries.answer (by decide) (wordBytes_length e 0) hdone'
  have taken : mid.answer e = some { mid with link := done, sweep := none } := by
    simp only [Processes.answer, hdone, hdone']
    rfl
  refine Ends.after (m := { mid with link := done, sweep := none }) ?_
    (run.append (.single (e := ProcessEvent.answer) trivial taken)) hasked
  exact ends_of_swept (s := { mid with link := done, sweep := none }) (hstage.trans loaded)
    (Or.inl rfl) hnext hthere hserved (hswept.trans (swept.trans hasked.symm))

theorem InRange.step {event : ProcessEvent} (h : s.InRange)
    (taken : s.step c e alloc programs event = some t) : t.InRange := by
  cases event with
  | main event =>
    obtain ⟨main, hmain, rfl, kind⟩ := mainStep_some taken
    exact fun sweep hsome i hi =>
      Nat.lt_of_lt_of_le (h sweep hsome i hi) (WatchReload.step_sockets kind hmain)
  | call =>
    simp only [Processes.step, Processes.call] at taken
    split at taken
    next =>
      obtain ⟨link, _, taken⟩ := Option.bind_eq_some_iff.mp taken
      cases Option.some.inj taken
      exact h
    next => cases taken
  | bytes event =>
    obtain ⟨_, link, _, rfl⟩ := bytes_some taken
    exact h
  | sweep =>
    simp only [Processes.step, Processes.beginSweep] at taken
    split at taken
    next =>
      obtain ⟨mark, _, taken⟩ := Option.bind_eq_some_iff.mp taken
      cases Option.some.inj taken
      rintro _ ⟨⟩ i hi
      exact List.mem_range.mp hi
    next => cases taken
  | report i =>
    obtain ⟨sweep, hsome, taken⟩ := Option.bind_eq_some_iff.mp taken
    obtain ⟨sock, _, taken⟩ := Option.bind_eq_some_iff.mp taken
    cases Option.some.inj taken
    rintro _ ⟨⟩ j hj
    exact h sweep hsome j (List.mem_of_mem_erase hj)
  | setMark i =>
    obtain ⟨sweep, hsome, taken⟩ := Option.bind_eq_some_iff.mp taken
    split at taken
    next =>
      cases Option.some.inj taken
      rintro _ ⟨⟩ j hj
      simpa using h sweep hsome j hj
    next => cases taken
  | answer =>
    simp only [Processes.step, Processes.answer] at taken
    split at taken
    next =>
      obtain ⟨link, _, taken⟩ := Option.bind_eq_some_iff.mp taken
      cases Option.some.inj taken
      rintro _ ⟨⟩
    next => cases taken
  | finish =>
    simp only [Processes.step, Processes.finish] at taken
    split at taken
    next =>
      obtain ⟨link, _, taken⟩ := Option.bind_eq_some_iff.mp taken
      cases Option.some.inj taken
      exact h
    next => cases taken
  | hangUp | eof =>
    obtain ⟨link, _, taken⟩ := Option.bind_eq_some_iff.mp taken
    cases Option.some.inj taken
    exact h
  | crash =>
    obtain ⟨link, _, taken⟩ := Option.bind_eq_some_iff.mp taken
    cases Option.some.inj taken
    rintro _ ⟨⟩

theorem Tracks.ends (h : s.Tracks e w) (range : s.InRange) (busy : s.link.caller ≠ .idle)
    (there : s.link.caller ≠ .gone) (served : s.link.server ≠ .gone) :
    s.Ends c e alloc programs := by
  cases h with
  | own hlink =>
    cases hs : s.link with
    | mk caller up server down =>
      rw [hs] at hlink busy there
      cases hlink with
      | idle hcaller => exact absurd (hcaller.resolve_right there) busy
      | gone => exact absurd rfl there
  | @asked plan bpf p hstage hp hlink hsweep hasked =>
    obtain ⟨events, link, run, moves, carries, hthere, hserved⟩ :=
      hlink.delivered (by decide) (by decide) there served
    have harrived : p.arrived = .working (wordBytes e plan.newMark.toNat) := by
      obtain rfl | rfl := hp <;> rfl
    rw [harrived] at carries
    have hworking : link.server = .working (wordBytes e plan.newMark.toNat) := by
      cases carries with
      | working => rfl
      | crashed => exact absurd rfl hserved
      | gone => exact absurd rfl hthere
    have begun : Processes.beginSweep e { s with link } = some { s with
        link
        sweep := some ⟨plan.newMark, List.range s.main.daemon.sockets.length, []⟩
        swept := s.swept ++ [plan.newMark] } := by
      simp only [Processes.beginSweep, hworking, hsweep, markOf_wordBytes]
      rfl
    refine Ends.after (m := { s with
        link
        sweep := some ⟨plan.newMark, List.range s.main.daemon.sockets.length, []⟩
        swept := s.swept ++ [plan.newMark] }) ?_
      ((run_bytes moves run).append (.single (e := ProcessEvent.sweep) trivial begun)) rfl
    refine ends_of_sweeping hstage carries hthere hserved rfl ?_ hasked.symm
    rintro _ ⟨⟩ i hi
    exact List.mem_range.mp hi
  | sweeping hstage hlink hsweep hswept =>
    exact ends_of_sweeping hstage hlink there served hsweep range hswept
  | swept hstage hp hlink _ hswept => exact ends_of_swept hstage hp hlink there served hswept
  | crashed _ _ hgone => exact absurd hgone served

/-- Wherever an iteration stands that has begun to write its mark, the two processes can
bring it to its end: neither waits for ever for the other. -/
theorem iteration_ends {d : Daemon} {events : List ProcessEvent}
    (run : Run (Processes.step c e alloc programs) (fun _ _ => True) (.new d) events s)
    (busy : s.link.caller ≠ .idle) (there : s.link.caller ≠ .gone)
    (served : s.link.server ≠ .gone) : ∃ events t,
      Run (Processes.step c e alloc programs) (fun _ _ => True) s events t ∧
        t.main.stage = .idle ∧ t.link.caller = .idle ∧ t.swept = s.asked ∧ t.asked = s.asked := by
  obtain ⟨w, _, tracks⟩ := tracks_run run
  have range : s.InRange := run.invariant (fun _ _ _ h _ => h.step) (by rintro _ ⟨⟩)
  exact tracks.ends range busy there served

set_option maxRecDepth 4000 in
theorem iteration_ends_slashA :
    ∃ s events t, Run (Processes.step slashACrates .little zeroedPages slashAPrograms)
        (fun _ _ => True) (.new loadedDaemon) askingEvents s ∧ s.main.stage ≠ .idle ∧
      Run (Processes.step slashACrates .little zeroedPages slashAPrograms) (fun _ _ => True)
        s events t ∧ t.main.stage = .idle ∧ t.swept = [70001] := by
  have run : ∃ s, Run (Processes.step slashACrates .little zeroedPages slashAPrograms)
      (fun _ _ => True) (.new loadedDaemon) askingEvents s ∧ s.main.stage ≠ .idle ∧
      s.asked = [70001] ∧ s.link.caller ≠ .idle ∧ s.link.caller ≠ .gone ∧ s.link.server ≠ .gone :=
    ⟨_, .of_foldlM rfl, by simp, rfl, by simp, by simp, by simp⟩
  obtain ⟨s, run, hstage, hasked, hidle, hthere, hserved⟩ := run
  obtain ⟨events, t, rest, hend, _, hswept, _⟩ := iteration_ends run hidle hthere hserved
  exact ⟨s, events, t, run, hstage, rest, hend, hswept.trans hasked⟩

/-- The forked process can end. -/
def Left (c : Crates) (e : Endian) (alloc : Nat → Option (Nat → UInt8))
    (programs : TaskId → Option Dentry × UInt32) (s : Processes) : Prop :=
  ∃ events t, Run (Processes.step c e alloc programs) (fun _ _ => True) s events t ∧
    t.link.server = .gone

variable (c e alloc programs) in
theorem left_of_loop {left got : List UInt8} (gone : s.link.caller = .gone)
    (loop : s.link.server = .loop left got) (up : s.link.up = []) :
    s.Left c e alloc programs := by
  have taken : s.eof = some { s with link := { s.link with server := .gone } } := by
    simp [Processes.eof, Exchange.eof, gone, loop, up]
  exact ⟨[.eof], _, .single trivial taken, rfl⟩

variable (c e alloc programs) in
theorem left_of_sweeping {request : List UInt8} {sweep : Sweep} (gone : s.link.caller = .gone)
    (working : s.link.server = .working request) (up : s.link.up = [])
    (hsweep : s.sweep = some sweep) (range : s.InRange) : s.Left c e alloc programs := by
  obtain ⟨events, mid, run, hdone, hlink, _⟩ := sweep_ends c e alloc programs hsweep range
  have taken : mid.answer e = some { mid with
      link := { mid.link with server := .loop (wordBytes e 0) [] }
      sweep := none } := by
    simp only [Processes.answer, hdone, hlink, Exchange.answer, working]
    rfl
  obtain ⟨events', t, rest, hserver⟩ := left_of_loop c e alloc programs (s := { mid with
      link := { mid.link with server := .loop (wordBytes e 0) [] }, sweep := none })
    (by rw [hlink]; exact gone) rfl (by rw [hlink]; exact up)
  exact ⟨_, t, (run.append (.single (e := ProcessEvent.answer) trivial taken)).append rest, hserver⟩

variable (c e alloc programs) in
theorem left_of_working {plan : Plan} (gone : s.link.caller = .gone)
    (working : s.link.server = .working (wordBytes e plan.newMark.toNat)) (up : s.link.up = [])
    (none : s.sweep = none) : s.Left c e alloc programs := by
  have begun : s.beginSweep e = some { s with
      sweep := some ⟨plan.newMark, List.range s.main.daemon.sockets.length, []⟩
      swept := s.swept ++ [plan.newMark] } := by
    simp only [Processes.beginSweep, working, none, markOf_wordBytes]
    rfl
  obtain ⟨events, t, run, hserver⟩ := left_of_sweeping c e alloc programs (s := { s with
      sweep := some ⟨plan.newMark, List.range s.main.daemon.sockets.length, []⟩
      swept := s.swept ++ [plan.newMark] }) gone working up rfl (by
        rintro _ ⟨⟩ i hi
        exact List.mem_range.mp hi)
  exact ⟨.sweep :: events, t, .cons trivial begun run, hserver⟩

variable (c e alloc programs) in
theorem Tracks.left (h : s.Tracks e w) (range : s.InRange) (gone : s.link.caller = .gone)
    (served : s.link.server ≠ .gone) : s.Left c e alloc programs := by
  have of_loop : ∀ {left got : List UInt8}, s.link.server = .loop left got → s.link.up = [] →
      s.Left c e alloc programs := left_of_loop c e alloc programs gone
  obtain ⟨main, ⟨caller, up, server, down⟩, sweep, asked, swept⟩ := s
  cases h with
  | own hlink =>
    cases hlink with
    | idle => exact of_loop rfl rfl
    | gone => exact absurd rfl served
  | @asked plan bpf p hstage hp hlink hsweep =>
    cases hlink with
    | @asked _ left _ got request hcaller hbytes hlength hlt =>
      obtain hp | hp := hp
      · cases hp
        by_cases hup : up = []
        · exact of_loop rfl hup
        · have htotal := congrArg List.length hbytes
          simp only [List.length_append] at htotal
          have hpos := List.length_pos_iff.mpr hup
          have htake : 0 < up.length ∧ up.length ≤ up.length ∧ up.length ≤ 4 - got.length := by
            omega
          by_cases hall : (got ++ up).length = 4
          · have hwhole : got ++ up = wordBytes e plan.newMark.toNat := by
              have hleft : left = [] := List.eq_nil_of_length_eq_zero (by
                rw [List.length_append] at hall
                omega)
              rw [← hbytes, hleft, List.append_nil]
            have taken : Processes.bytes (.take up.length)
                ⟨main, ⟨caller, up, .loop [] got, []⟩, sweep, asked, swept⟩ = some
                  ⟨main, ⟨caller, [], .working (wordBytes e plan.newMark.toNat), []⟩, sweep, asked,
                    swept⟩ := by
              simp [Processes.bytes, Exchange.step, Exchange.take, htake, hwhole]
            obtain ⟨events, t, run, hserver⟩ := left_of_working c e alloc programs (s := ⟨main,
                ⟨caller, [], .working (wordBytes e plan.newMark.toNat), []⟩, sweep, asked, swept⟩)
              gone rfl rfl hsweep
            exact ⟨.bytes (.take up.length) :: events, t, .cons trivial taken run, hserver⟩
          · have taken : Processes.bytes (.take up.length)
                ⟨main, ⟨caller, up, .loop [] got, []⟩, sweep, asked, swept⟩ = some
                  ⟨main, ⟨caller, [], .loop [] (got ++ up), []⟩, sweep, asked, swept⟩ := by
              rw [List.length_append] at hall
              simp [Processes.bytes, Exchange.step, Exchange.take, htake, hall]
            obtain ⟨events, t, run, hserver⟩ := left_of_loop c e alloc programs (s := ⟨main,
                ⟨caller, [], .loop [] (got ++ up), []⟩, sweep, asked, swept⟩) gone rfl rfl
            exact ⟨.bytes (.take up.length) :: events, t, .cons trivial taken run, hserver⟩
      · cases hp
    | working =>
      obtain hp | hp := hp
      · cases hp
      · cases hp
        exact left_of_working c e alloc programs gone rfl rfl hsweep
    | idle | answered | returned => obtain hp | hp := hp <;> cases hp
    | crashed | gone => exact absurd rfl served
  | sweeping hstage hlink hsweep =>
    cases hlink with
    | working => exact left_of_sweeping c e alloc programs gone rfl rfl hsweep range
    | crashed | gone => exact absurd rfl served
  | swept hstage hp hlink =>
    cases hlink with
    | answered => exact of_loop rfl rfl
    | returned => exact of_loop rfl rfl
    | idle | asked | working => obtain hp | hp := hp <;> cases hp
    | crashed | gone => exact absurd rfl served
  | crashed _ _ hgone => exact absurd hgone served

/-- When the daemon is gone no mark is asked for any more. -/
theorem step_gone {event : ProcessEvent} (gone : s.link.caller = .gone)
    (taken : s.step c e alloc programs event = some t) :
    t.link.caller = .gone ∧ t.asked = s.asked ∧ s.swept <+: t.swept := by
  cases event with
  | main event =>
    obtain ⟨main, _, rfl, _⟩ := mainStep_some taken
    exact ⟨gone, rfl, List.prefix_refl _⟩
  | call =>
    simp only [Processes.step, Processes.call] at taken
    split at taken
    next => simp [Exchange.call, gone] at taken
    next => cases taken
  | bytes event =>
    obtain ⟨_, link, hlink, rfl⟩ := bytes_some taken
    exact ⟨Exchange.step_gone gone hlink, rfl, List.prefix_refl _⟩
  | sweep =>
    simp only [Processes.step, Processes.beginSweep] at taken
    split at taken
    next =>
      obtain ⟨mark, _, taken⟩ := Option.bind_eq_some_iff.mp taken
      cases Option.some.inj taken
      exact ⟨gone, rfl, List.prefix_append _ _⟩
    next => cases taken
  | report i =>
    obtain ⟨sweep, _, taken⟩ := Option.bind_eq_some_iff.mp taken
    obtain ⟨sock, _, taken⟩ := Option.bind_eq_some_iff.mp taken
    cases Option.some.inj taken
    exact ⟨gone, rfl, List.prefix_refl _⟩
  | setMark i =>
    obtain ⟨sweep, _, taken⟩ := Option.bind_eq_some_iff.mp taken
    split at taken
    next =>
      cases Option.some.inj taken
      exact ⟨gone, rfl, List.prefix_refl _⟩
    next => cases taken
  | answer =>
    simp only [Processes.step, Processes.answer] at taken
    split at taken
    next =>
      obtain ⟨link, hanswer, taken⟩ := Option.bind_eq_some_iff.mp taken
      cases Option.some.inj taken
      exact ⟨by rw [Exchange.answer_some hanswer]; exact gone, rfl, List.prefix_refl _⟩
    next => cases taken
  | finish =>
    simp only [Processes.step, Processes.finish] at taken
    split at taken
    next => simp [Exchange.back_gone gone] at taken
    next => cases taken
  | hangUp =>
    obtain ⟨link, hlink, taken⟩ := Option.bind_eq_some_iff.mp taken
    simp [Exchange.hangUp, gone] at hlink
  | eof =>
    obtain ⟨link, hlink, taken⟩ := Option.bind_eq_some_iff.mp taken
    cases Option.some.inj taken
    have hstep : s.link.step 4 4 .eof = some link := hlink
    exact ⟨Exchange.step_gone gone hstep, rfl, List.prefix_refl _⟩
  | crash =>
    obtain ⟨link, hlink, taken⟩ := Option.bind_eq_some_iff.mp taken
    cases Option.some.inj taken
    have hstep : s.link.step 4 4 .crash = some link := hlink
    exact ⟨Exchange.step_gone gone hstep, rfl, List.prefix_refl _⟩

/-- However the run goes on once the daemon is gone, at most the mark on its way is swept. -/
theorem swept_after {d : Daemon} {events events' : List ProcessEvent}
    (run : Run (Processes.step c e alloc programs) (fun _ _ => True) (.new d) events s)
    (gone : s.link.caller = .gone)
    (rest : Run (Processes.step c e alloc programs) (fun _ _ => True) s events' t) :
    t.swept = s.swept ∨ t.swept = s.asked := by
  obtain ⟨_, hasked, hgrown⟩ : t.link.caller = .gone ∧ t.asked = s.asked ∧ s.swept <+: t.swept := by
    refine rest.invariant (I := fun t => t.link.caller = .gone ∧ t.asked = s.asked ∧
      s.swept <+: t.swept) ?_ ⟨gone, rfl, List.prefix_refl _⟩
    rintro mid event next ⟨hgone, hsame, hgrown⟩ _ taken
    obtain ⟨hgone', hsame', hgrown'⟩ := step_gone hgone taken
    exact ⟨hgone', hsame'.trans hsame, hgrown.trans hgrown'⟩
  obtain ⟨_, hone, _⟩ := swept_in_order run
  obtain ⟨hbegun, _, _⟩ := swept_in_order (run.append rest)
  rw [hasked] at hbegun
  have hle := hgrown.length_le
  have hle' := hbegun.length_le
  by_cases same : t.swept.length = s.swept.length
  · exact Or.inl (hgrown.eq_of_length same.symm).symm
  · exact Or.inr (hbegun.eq_of_length (by omega))

/-- Wherever the daemon is shut down, the forked process can end, and whatever it does it
sweeps for no mark any more but one that is on its way. -/
theorem forked_process_ends {d : Daemon} {events : List ProcessEvent}
    (run : Run (Processes.step c e alloc programs) (fun _ _ => True) (.new d) events s)
    (gone : s.link.caller = .gone) :
    (∃ events t, Run (Processes.step c e alloc programs) (fun _ _ => True) s events t ∧
      t.link.server = .gone) ∧
    ∀ events t, Run (Processes.step c e alloc programs) (fun _ _ => True) s events t →
      t.swept = s.swept ∨ t.swept = s.asked := by
  refine ⟨?_, fun events t rest => swept_after run gone rest⟩
  obtain ⟨w, _, tracks⟩ := tracks_run run
  have range : s.InRange := run.invariant (fun _ _ _ h _ => h.step) (by rintro _ ⟨⟩)
  by_cases served : s.link.server = .gone
  · exact ⟨[], s, .nil, served⟩
  · exact tracks.left c e alloc programs range gone served

set_option maxRecDepth 4000 in
/-- The daemon is shut down while it waits for the sweep. -/
theorem forked_process_ends_slashA :
    ∃ s events t, Run (Processes.step slashACrates .little zeroedPages slashAPrograms)
        (fun _ _ => True) (.new loadedDaemon) (askingEvents ++ [.hangUp]) s ∧
      Run (Processes.step slashACrates .little zeroedPages slashAPrograms) (fun _ _ => True)
        s events t ∧ t.link.server = .gone ∧ (t.swept = [] ∨ t.swept = [70001]) := by
  have run : ∃ s, Run (Processes.step slashACrates .little zeroedPages slashAPrograms)
      (fun _ _ => True) (.new loadedDaemon) (askingEvents ++ [.hangUp]) s ∧
      s.link.caller = .gone ∧ s.swept = [] ∧ s.asked = [70001] := ⟨_, .of_foldlM rfl, rfl, rfl, rfl⟩
  obtain ⟨s, run, hgone, hswept, hasked⟩ := run
  obtain ⟨⟨events, t, rest, hserver⟩, hevery⟩ := forked_process_ends run hgone
  have hafter := hevery events t rest
  rw [hswept, hasked] at hafter
  exact ⟨s, events, t, run, rest, hserver, hafter⟩

end Processes

end

end Rebpf
