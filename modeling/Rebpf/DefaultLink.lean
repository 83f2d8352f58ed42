import Rebpf.Settled

namespace Rebpf

open Lib

/-- A route message carries the id of its table, and 0 is no table's. -/
def Notice.Carries : Notice → Prop
  | .route table _ => ∃ t, table = some t ∧ t ≠ 0
  | .link _ _ => True

theorem Notice.carries_main {route : FibRoute} (h : route.table = rtTableMain) :
    (Notice.route (some route.table) (some route.oif)).Carries := by
  refine ⟨route.table, rfl, ?_⟩
  rw [h]
  decide

namespace System

variable {c : Crates} {e : Endian} {dc : DnsCrates} {alloc : Nat → Option (Nat → UInt8)}
  {lookup : Net → List Link → UInt32 → Option FibResult} {s t : System}

/-- `watch_multicast` has started, and the messages it gets carry their tables. -/
def Announced (_ : System) : SystemEvent → Prop
  | .notify notice => notice.Carries
  | .listen => False
  | _ => True

/-- A message that carries its table is not for the default route. -/
theorem watchMulticast_carries (lookup : Net → List Link → UInt32 → Option FibResult)
    (s : System) {notice : Notice} (h : notice.Carries) :
    ∃ toChanged, s.toChanged.Later toChanged ∧
      s.watchMulticast lookup notice = { s with toChanged } := by
  cases notice with
  | route table oif =>
    obtain ⟨id, rfl, hid⟩ := h
    refine ⟨s.toChanged, .refl _, ?_⟩
    simp [watchMulticast, hid]
  | link ifindex ifname =>
    simp only [watchMulticast]
    split
    · exact ⟨_, Watch.later_send _ _, rfl⟩
    · split
      · exact ⟨_, .refl _, rfl⟩
      · split
        · exact ⟨_, Watch.later_send _ _, rfl⟩
        · exact ⟨_, .refl _, rfl⟩

/-- Every message still to be handled carries its table. -/
def NoticesCarry (s : System) : Prop := ∀ notice ∈ s.notices, notice.Carries

theorem NoticesCarry.push (h : s.NoticesCarry) {notice : Notice} (new : notice.Carries) :
    ∀ n ∈ s.notices ++ [notice], n.Carries := by
  intro n hn
  rcases List.mem_append.mp hn with hn | hn
  · exact h n hn
  · rw [List.mem_singleton.mp hn]
    exact new

theorem step_announced {event : SystemEvent} (carry : s.NoticesCarry) (ok : s.Announced event)
    (h : s.step c e dc alloc lookup event = some t) :
    t.defaultRoute = s.defaultRoute ∧ t.NoticesCarry := by
  cases event with
  | linkChanged link => cases Option.some.inj h; exact ⟨rfl, carry.push trivial⟩
  | linkGone ifindex =>
    obtain ⟨link, _, h⟩ := Option.bind_eq_some_iff.mp h
    cases Option.some.inj h
    exact ⟨rfl, carry.push trivial⟩
  | routeAdded route =>
    simp only [step] at h
    split at h
    next hmain =>
      cases Option.some.inj h
      exact ⟨rfl, carry.push (Notice.carries_main hmain)⟩
    next => cases h
  | routeDeleted route =>
    simp only [step] at h
    split at h
    next hmain =>
      cases Option.some.inj h
      exact ⟨rfl, carry.push (Notice.carries_main hmain.1)⟩
    next => cases h
  | notify notice => cases Option.some.inj h; exact ⟨rfl, carry.push ok⟩
  | listen => cases ok
  | notice =>
    simp only [step] at h
    split at h
    next => cases h
    next notice notices hnotices =>
      have hcarries : notice.Carries := carry notice (by rw [hnotices]; exact List.mem_cons_self)
      obtain ⟨toChanged, _, heq⟩ :=
        watchMulticast_carries lookup { s with notices } hcarries
      rw [heq] at h
      cases Option.some.inj h
      refine ⟨rfl, fun n hn => carry n ?_⟩
      rw [hnotices]
      exact List.mem_cons_of_mem _ hn
  | _ =>
    have frame := step_frame h
    refine ⟨frame.defaultRoute rfl, fun n hn => carry n ?_⟩
    rwa [frame.notices rfl] at hn

/-- `default_route_changed` holds the current default link, and so a record to
bypass is set up with it. -/
structure DefaultFresh (lookup : Net → List Link → UInt32 → Option FibResult) (s : System) :
    Prop where
  value : s.defaultRoute.value = s.getDefaultLink lookup
  bypass : ∀ net rec, setupRecord s.dnsCtx net rec .bypass =
    setupRecord { s.dnsCtx with defaultRoute := s.getDefaultLink lookup } net rec .bypass

/-- With `dns` matches there, nothing is waiting to be handled. -/
structure Expectant (s : System) : Prop where
  dnsCount : 0 < s.conf.value.ms.dnsCount
  notices : s.notices = []
  quiet : s.Quiet

/-- The default link is never looked up again: it is fresh as long as the kernel
answers what it answered when `watch_multicast` started. -/
theorem defaultFresh_iff {s₀ : System} (heard : s₀.defaultRoute.value = s₀.getDefaultLink lookup)
    (carry : s₀.NoticesCarry) {events : List SystemEvent}
    (run : Run (step c e dc alloc lookup) Announced s₀ events s) :
    (s.Expectant → s.DefaultFresh lookup) ↔
      (s.Expectant → s.getDefaultLink lookup = s₀.getDefaultLink lookup) := by
  have hkept : s.defaultRoute = s₀.defaultRoute ∧ s.NoticesCarry := by
    refine run.invariant (I := fun s => s.defaultRoute = s₀.defaultRoute ∧ s.NoticesCarry)
      (fun s event t h ok step => ?_) ⟨rfl, carry⟩
    obtain ⟨hsame, hcarry⟩ := step_announced h.2 ok step
    exact ⟨hsame.trans h.1, hcarry⟩
  have hvalue : s.defaultRoute.value = s₀.getDefaultLink lookup := by
    rw [hkept.1, heard]
  refine imp_congr_right fun _ => ⟨fun fresh => fresh.value.symm.trans hvalue, fun hsame => ?_⟩
  have hfresh : s.defaultRoute.value = s.getDefaultLink lookup := hvalue.trans hsame.symm
  refine ⟨hfresh, fun net rec => ?_⟩
  rw [← hfresh]
  rfl

def ethDefault : FibRoute :=
  { table := rtTableMain, dst := ⟨0, 0⟩, oif := 1, prefsrc := none, gateway := some 1 }

/-- A host whose default route, by `eth0`, is taken away and set up again. -/
def ethSystem : System :=
  { wgSystem with
    net := ⟨[], [ethDefault], []⟩
    defaultRoute := (Watch.new none).send (some ⟨true, 1, "eth0", [], some 1⟩) }

theorem defaultFresh_iff_eth :
    ∃ s, Run (step anyCrates .little sampleDnsCrates zeroedPages firstMain) Announced ethSystem
        ([.routeDeleted ethDefault, .routeAdded ethDefault, .notice, .notice] ++ turns 70001) s ∧
      ((s.Expectant → s.DefaultFresh firstMain) ↔
        (s.Expectant → s.getDefaultLink firstMain = ethSystem.getDefaultLink firstMain)) := by
  have run : ∃ s, Run (step anyCrates .little sampleDnsCrates zeroedPages firstMain) Announced
      ethSystem ([.routeDeleted ethDefault, .routeAdded ethDefault, .notice, .notice] ++
        turns 70001) s :=
    ⟨_, .cons trivial rfl (.cons trivial rfl (.cons trivial rfl (.cons trivial rfl
      (.cons trivial rfl (.cons trivial rfl (.cons trivial rfl (.cons trivial rfl
      (.cons trivial rfl (.cons trivial rfl (.single trivial rfl))))))))))⟩
  obtain ⟨s, run⟩ := run
  exact ⟨s, run, defaultFresh_iff rfl nofun run⟩

/-- The default route is taken away: its message is dropped for carrying its table. -/
theorem defaultFresh_not :
    ¬∀ {c : Crates} {e : Endian} {dc : DnsCrates} {alloc : Nat → Option (Nat → UInt8)}
      {lookup : Net → List Link → UInt32 → Option FibResult} {s₀ s : System},
      s₀.defaultRoute.value = s₀.getDefaultLink lookup → s₀.NoticesCarry →
      ∀ {events : List SystemEvent}, Run (step c e dc alloc lookup) Announced s₀ events s →
      s.Expectant → s.DefaultFresh lookup := by
  intro h
  have run : ∃ s, Run (step anyCrates .little sampleDnsCrates zeroedPages firstMain) Announced
      ethSystem (turns 70001 ++ [.routeDeleted ethDefault, .notice]) s ∧ s.Expectant ∧
      s.defaultRoute.value.isSome = true ∧ s.getDefaultLink firstMain = none :=
    ⟨_, .cons trivial rfl (.cons trivial rfl (.cons trivial rfl (.cons trivial rfl
      (.cons trivial rfl (.cons trivial rfl (.cons trivial rfl (.cons trivial rfl
      (.single trivial rfl)))))))), ⟨by decide, rfl, ⟨rfl, rfl⟩, ⟨rfl, rfl, rfl⟩, ⟨rfl, rfl, rfl⟩,
        rfl, rfl⟩, rfl, rfl⟩
  obtain ⟨s, run, expectant, hsome, hnone⟩ := run
  have heard : ethSystem.defaultRoute.value = ethSystem.getDefaultLink firstMain := rfl
  have carry : ethSystem.NoticesCarry := nofun
  have fresh := (h heard carry run expectant).value
  rw [fresh, hnone] at hsome
  cases hsome

end System

end Rebpf
