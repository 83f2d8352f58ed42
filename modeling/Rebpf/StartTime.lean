import Mathlib.Tactic.Common
import Rebpf.Lib.CString
import Rebpf.Lib.Outcome

namespace Rebpf

open Lib

inductive Errno
  | eintr
  | other
deriving DecidableEq, Repr

/-- How the kernel answers a read. -/
inductive ReadAnswer
  | upTo (n : Nat)
  | fails (err : Errno)
deriving DecidableEq, Repr

/-- An open file: what is left of it, and the answers to the reads to come. Reads after
these give all they can. -/
structure ProcFile where
  rest : List UInt8
  answers : List ReadAnswer
deriving DecidableEq, Repr

/-- At least one byte is given, except at the end or for an empty buffer. -/
def ProcFile.read (f : ProcFile) (count : Nat) : Except Errno (List UInt8) × ProcFile :=
  match f.answers with
  | [] => (.ok (f.rest.take count), { f with rest := f.rest.drop count })
  | .upTo n :: answers =>
    let size := min (max 1 n) count
    (.ok (f.rest.take size), { rest := f.rest.drop size, answers })
  | .fails err :: answers => (.error err, { f with answers })

def ProcFile.size (f : ProcFile) : Nat := f.answers.length + f.rest.length

/-- No read fails but for a signal. -/
def ProcFile.Steady (f : ProcFile) : Prop := .fails .other ∉ f.answers

section

variable {f g : ProcFile} {count : Nat}

theorem ProcFile.read_ok {bytes : List UInt8} (h : f.read count = (.ok bytes, g)) :
    f.rest = bytes ++ g.rest ∧ g.answers.length ≤ f.answers.length ∧
      (0 < count → bytes = [] → f.rest = []) ∧ (f.Steady → g.Steady) := by
  unfold read at h
  split at h
  next =>
    cases h
    refine ⟨(List.take_append_drop _ _).symm, Nat.le_refl _, fun hcount hnil => ?_, id⟩
    exact (List.take_eq_nil_iff.mp hnil).resolve_left (by omega)
  next n answers hanswers =>
    cases h
    refine ⟨(List.take_append_drop _ _).symm, ?_, fun hcount hnil => ?_, fun steady => ?_⟩
    · simp [hanswers]
    · exact (List.take_eq_nil_iff.mp hnil).resolve_left (by omega)
    · exact fun h => steady (hanswers ▸ List.mem_cons_of_mem _ h)
  next => cases h

theorem ProcFile.read_error {err : Errno} (h : f.read count = (.error err, g)) :
    g.rest = f.rest ∧ f.answers = .fails err :: g.answers := by
  unfold read at h
  split at h
  next => cases h
  next => cases h
  next err' answers hanswers =>
    cases h
    exact ⟨rfl, hanswers⟩

end

/-- Bytes written over those of a buffer. -/
def overwriteAt (buf : List UInt8) (off : Nat) (bytes : List UInt8) : List UInt8 :=
  buf.take off ++ bytes ++ buf.drop (off + bytes.length)

def bufSize : Nat := 1024

/-- Until the end of the file, or a read that fails. -/
def readLoop (f : ProcFile) (buf : List UInt8) (len : Nat) : Option (List UInt8 × Nat) :=
  match _ : f.read (bufSize - len) with
  | (.error .eintr, f) => readLoop f buf len
  | (.error .other, _) => none
  | (.ok [], _) => some (buf, len)
  | (.ok (b :: bytes), f) =>
    readLoop f (overwriteAt buf len (b :: bytes)) (len + (b :: bytes).length)
termination_by f.size
decreasing_by
  next h =>
    obtain ⟨hrest, hanswers⟩ := ProcFile.read_error h
    simp [ProcFile.size, hrest, hanswers]
  next h =>
    obtain ⟨hrest, hanswers, _⟩ := ProcFile.read_ok h
    simp only [ProcFile.size, hrest, List.length_append, List.length_cons]
    omega

/-- `buf[len] = '\0'` -/
def terminate (buf : List UInt8) (len : Nat) : Except Fault (List UInt8) :=
  if len < buf.length then .ok (buf.set len 0) else .error .outOfBounds

/-- Past `n` spaces, byte 32, or to the end of the string. -/
def seekField (n : Nat) (seek : Option (List UInt8)) : Except Fault (List UInt8) :=
  match seek with
  | none => .error .null
  | some [] => .error .outOfBounds
  | some (b :: s) =>
    if b = 0 then .ok (b :: s)
    else match n with
      | 0 => .ok (b :: s)
      | n + 1 => do
        let seek ← CString.strchr 32 s
        seekField n seek

/-- What the check of a socket's owner asks of the system. Errors are their texts. -/
structure Syscalls where
  openStat : String → Option ProcFile
  clkTck : UInt64
  pidfdOpen : UInt32 → Except String Nat
  pidfdGetfd : Nat → UInt32 → Except String Nat
  setsockoptMark : Nat → UInt32 → Except String Unit

def statPath (pid : UInt32) : String := "/proc/" ++ toString pid ++ "/stat"

/-- `stack` is what the buffer held before. Byte 41 is the `)` after the command name. -/
def procGetStartTime (sys : Syscalls) (stack : Vector UInt8 bufSize) (pid : UInt32) :
    Except Fault UInt64 :=
  match sys.openStat (statPath pid) with
  | none => .ok 0
  | some f =>
    match readLoop f stack.toList 0 with
    | none => .ok 0
    | some (buf, len) => do
      let buf ← terminate buf len
      let seek ← CString.strrchr 41 buf
      let seek ← seekField 20 seek
      let ticks ← CString.strtoull seek
      if sys.clkTck = 0 then .error .divideByZero else .ok (ticks / sys.clkTck)

def errText (res : Except String Unit) : Option String :=
  match res with
  | .error err => some err
  | .ok () => none

def procSetMark (sys : Syscalls) (stack : Vector UInt8 bufSize) (pid : UInt32)
    (startTime : UInt64) (fd fwmark : UInt32) : Except Fault (Option String) :=
  match sys.pidfdOpen pid with
  | .error err => .ok (some err)
  | .ok pidfd =>
    match sys.pidfdGetfd pidfd fd with
    | .error err => .ok (some err)
    | .ok clonedFd => do
      let found ← procGetStartTime sys stack pid
      if found ≠ startTime then return some "Mismatch in starttime"
      else return errText (sys.setsockoptMark clonedFd fwmark)

def nsPerSec : UInt64 := 1000000000

structure ProcFdEntry where
  pid : UInt64
  startBoottime : UInt64
  fd : UInt32
deriving DecidableEq, Repr

/-- What `bpf_refresh_sockets` does with an entry. -/
def ProcFdEntry.setMark (ent : ProcFdEntry) (sys : Syscalls) (stack : Vector UInt8 bufSize)
    (mark : UInt32) : Except Fault (Option String) :=
  procSetMark sys stack ent.pid.toUInt32 (ent.startBoottime / nsPerSec) ent.fd mark

/-- A field of a stat line behind the command name. -/
structure StatField where
  text : List UInt8
  plain : ∀ b ∈ text, b ≠ 0 ∧ b ≠ 32 ∧ b ≠ 41

/-- A task as its stat line tells it, with what stands before and after the start time
among its fields. -/
structure StatTask where
  pid : UInt32
  comm : List UInt8
  comm_string : ∀ b ∈ comm, b ≠ 0
  before : List StatField
  before_length : before.length = 19
  startBoottime : UInt64
  after : List StatField

def spaced (fields : List StatField) : List UInt8 := fields.flatMap fun f => 32 :: f.text

theorem spaced_cons (f : StatField) (fields : List StatField) (rest : List UInt8) :
    spaced (f :: fields) ++ rest = 32 :: (f.text ++ (spaced fields ++ rest)) := by
  simp [spaced]

/-- The start time in clock ticks. -/
def StatTask.ticks (t : StatTask) (clkTck : UInt64) : Nat :=
  t.startBoottime.toNat * clkTck.toNat / 10 ^ 9

/-- From the end of the command name on, see proc_pid_stat(5). -/
def StatTask.fields (t : StatTask) (clkTck : UInt64) : List UInt8 :=
  spaced t.before ++ 32 :: (ascii (Nat.toDigits 10 (t.ticks clkTck)) ++
    (spaced t.after ++ [10]))

def StatTask.statLine (t : StatTask) (clkTck : UInt64) : List UInt8 :=
  ascii (Nat.toDigits 10 t.pid.toNat) ++ [32, 40] ++ t.comm ++ 41 :: t.fields clkTck

theorem overwriteAt_overwriteAt {buf xs ys : List UInt8} {off : Nat}
    (h : off + xs.length ≤ buf.length) :
    overwriteAt (overwriteAt buf off xs) (off + xs.length) ys = overwriteAt buf off (xs ++ ys) := by
  have hlength : (buf.take off ++ xs).length = off + xs.length := by
    rw [List.length_append, List.length_take]
    omega
  have hbehind : (overwriteAt buf off xs).drop (off + xs.length) = buf.drop (off + xs.length) :=
    List.drop_left' hlength
  rw [overwriteAt, ← List.drop_drop, hbehind, List.drop_drop, overwriteAt,
    List.take_left' hlength, overwriteAt, List.length_append, ← List.append_assoc, Nat.add_assoc]

theorem overwriteAt_length {buf bytes : List UInt8} {off : Nat}
    (h : off + bytes.length ≤ buf.length) : (overwriteAt buf off bytes).length = buf.length := by
  simp only [overwriteAt, List.length_append, List.length_take, List.length_drop]
  omega

/-- However the kernel splits it, a file shorter than the buffer is read whole. -/
theorem readLoop_whole {f : ProcFile} {buf : List UInt8} {len : Nat} (steady : f.Steady)
    (hbuf : buf.length = bufSize) (short : len + f.rest.length < bufSize) :
    readLoop f buf len = some (overwriteAt buf len f.rest, len + f.rest.length) := by
  induction f, buf, len using readLoop.induct with
  | case1 f buf len g h ih =>
    obtain ⟨hrest, hanswers⟩ := ProcFile.read_error h
    have hg : g.Steady := fun hmem => steady (hanswers ▸ List.mem_cons_of_mem _ hmem)
    rw [readLoop, h]
    rw [← hrest] at short ⊢
    exact ih hg hbuf short
  | case2 f buf len g h =>
    obtain ⟨_, hanswers⟩ := ProcFile.read_error h
    exact absurd (hanswers ▸ List.mem_cons_self) steady
  | case3 f buf len g h =>
    obtain ⟨_, _, hend, _⟩ := ProcFile.read_ok h
    have hrest : f.rest = [] := hend (by omega) rfl
    rw [readLoop, h, hrest]
    simp [overwriteAt]
  | case4 f buf len b bytes g h ih =>
    obtain ⟨hrest, _, _, hg⟩ := ProcFile.read_ok h
    have hlength : f.rest.length = (b :: bytes).length + g.rest.length := by
      rw [hrest, List.length_append]
    have fits : len + (b :: bytes).length ≤ buf.length := by omega
    rw [readLoop, h]
    refine (ih (hg steady) ((overwriteAt_length fits).trans hbuf) (by omega)).trans ?_
    rw [overwriteAt_overwriteAt fits, ← hrest, hlength, Nat.add_assoc]

theorem terminate_overwriteAt {buf bytes : List UInt8} (h : bytes.length < buf.length) :
    terminate (overwriteAt buf 0 bytes) bytes.length =
      .ok (bytes ++ 0 :: buf.drop (bytes.length + 1)) := by
  have hlength : (overwriteAt buf 0 bytes).length = buf.length := overwriteAt_length (by omega)
  obtain ⟨b, hdrop⟩ : ∃ b, buf.drop bytes.length = b :: buf.drop (bytes.length + 1) :=
    ⟨_, List.drop_eq_getElem_cons h⟩
  rw [terminate, if_pos (hlength ▸ h), overwriteAt, Nat.zero_add, hdrop]
  simp

/-- From a byte before the fields, one space more than there are fields to pass. -/
theorem seekField_spaced (fields : List StatField) {b : UInt8} {s : List UInt8} (hb : b ≠ 0)
    (without : CString.Without 32 s) (rest : List UInt8) :
    seekField (fields.length + 1) (some (b :: (s ++ (spaced fields ++ 32 :: rest)))) =
      .ok (32 :: rest) := by
  induction fields generalizing b s with
  | nil =>
    have hnext := CString.strchr_append without rest
    simp only [List.length_nil, seekField, if_neg hb]
    rw [spaced, List.flatMap_nil, List.nil_append, hnext]
    rfl
  | cons f fields ih =>
    have hnext := CString.strchr_append without (f.text ++ (spaced fields ++ 32 :: rest))
    rw [List.length_cons, seekField]
    simp only [if_neg hb]
    rw [spaced_cons, hnext]
    exact ih (b := 32) (by decide) fun b hb => ⟨(f.plain b hb).1, (f.plain b hb).2.1⟩

theorem spaced_without (fields : List StatField) : CString.Without 41 (spaced fields) := by
  intro b hb
  obtain ⟨f, _, hb⟩ := List.mem_flatMap.mp hb
  rcases List.mem_cons.mp hb with rfl | hb
  · exact ⟨by decide, by decide⟩
  · exact ⟨(f.plain b hb).1, (f.plain b hb).2.2⟩

namespace StatTask

variable (t : StatTask) (clkTck : UInt64)

theorem fields_without : CString.Without 41 (t.fields clkTck) := by
  intro b hb
  simp only [fields, List.mem_append, List.mem_cons, List.not_mem_nil, or_false] at hb
  rcases hb with hb | rfl | hb | hb | rfl
  · exact spaced_without _ b hb
  · exact ⟨by decide, by decide⟩
  · exact CString.without_digits (by decide) _ b hb
  · exact spaced_without _ b hb
  · exact ⟨by decide, by decide⟩

/-- What follows the start time ends its digits. -/
theorem behind_ticks (behind : List UInt8) :
    ∃ b rest, spaced t.after ++ [10] ++ 0 :: behind = b :: rest ∧ CString.isDigit b = false := by
  cases t.after with
  | nil => exact ⟨10, _, rfl, rfl⟩
  | cons f fields => exact ⟨32, _, rfl, rfl⟩

/-- Whatever the command is called, the start time is found. -/
theorem seekField_fields {front : List UInt8} (hfront : ∀ b ∈ front, b ≠ 0)
    (behind : List UInt8) :
    ∃ seek, CString.strrchr 41 (front ++ 41 :: t.fields clkTck ++ 0 :: behind) = .ok seek ∧
      seekField 20 seek = .ok (32 :: (ascii (Nat.toDigits 10 (t.ticks clkTck)) ++
        (spaced t.after ++ [10] ++ 0 :: behind))) := by
  have hlast := CString.strrchr_last hfront (t.fields_without clkTck) (by decide) behind
  have hseek := seekField_spaced t.before (b := 41) (by decide) (List.forall_mem_nil _)
    (ascii (Nat.toDigits 10 (t.ticks clkTck)) ++ (spaced t.after ++ [10] ++ 0 :: behind))
  have hfields : 41 :: t.fields clkTck ++ 0 :: behind = 41 :: ([] ++ (spaced t.before ++
      32 :: (ascii (Nat.toDigits 10 (t.ticks clkTck)) ++ (spaced t.after ++ [10] ++ 0 :: behind)))) := by
    simp [fields]
  rw [t.before_length, ← hfields] at hseek
  rw [List.append_assoc]
  exact ⟨_, hlast, hseek⟩

theorem ticks_lt (h : clkTck.toNat ∣ 10 ^ 9) : t.ticks clkTck < 2 ^ 64 := by
  have hle := Nat.le_of_dvd (by decide) h
  have hlt := t.startBoottime.toNat_lt
  have hmul := Nat.mul_le_mul_left t.startBoottime.toNat hle
  unfold ticks
  omega

/-- Of two divisions by ticks and one by nanoseconds. -/
theorem ticks_div (h : clkTck.toNat ∣ 10 ^ 9) :
    UInt64.ofNat (t.ticks clkTck) / clkTck = t.startBoottime / nsPerSec := by
  have hpos : 0 < clkTck.toNat := Nat.pos_of_dvd_of_pos h (by decide)
  apply UInt64.toNat_inj.mp
  calc (UInt64.ofNat (t.ticks clkTck) / clkTck).toNat
    _ = t.ticks clkTck / clkTck.toNat := by
      rw [UInt64.toNat_div, UInt64.toNat_ofNat_of_lt' (t.ticks_lt clkTck h)]
    _ = t.startBoottime.toNat * clkTck.toNat / (10 ^ 9 * clkTck.toNat) := by
      rw [ticks, Nat.div_div_eq_div_mul]
    _ = t.startBoottime.toNat / 10 ^ 9 := Nat.mul_div_mul_right _ _ hpos
    _ = (t.startBoottime / nsPerSec).toNat := by rw [UInt64.toNat_div]; rfl

/-- The start time of the file that /proc has for the task, in seconds. -/
theorem procGetStartTime_file {sys : Syscalls} (stack : Vector UInt8 bufSize) {pid : UInt32}
    {f : ProcFile} (hopen : sys.openStat (statPath pid) = some f) (steady : f.Steady)
    (hline : f.rest = t.statLine sys.clkTck) (short : (t.statLine sys.clkTck).length < 1024)
    (hclk : sys.clkTck.toNat ∣ 10 ^ 9) :
    procGetStartTime sys stack pid = .ok (t.startBoottime / nsPerSec) := by
  have hstack : stack.toList.length = bufSize := Vector.length_toList
  have hfits : (t.statLine sys.clkTck).length < stack.toList.length := by rw [hstack]; exact short
  have hread := readLoop_whole steady hstack (by rw [hline, Nat.zero_add]; exact short)
  have hfront : ∀ b ∈ ascii (Nat.toDigits 10 t.pid.toNat) ++ [32, 40] ++ t.comm, b ≠ 0 := by
    intro b hb
    simp only [List.mem_append, List.mem_cons, List.not_mem_nil, or_false] at hb
    rcases hb with (hb | rfl | rfl) | hb
    · exact (CString.without_digits (c := 0) (by decide) _ b hb).1
    · decide
    · decide
    · exact t.comm_string b hb
  have hne : sys.clkTck ≠ 0 := fun h => by
    rw [h] at hclk
    exact absurd hclk (by decide)
  obtain ⟨seek, hlast, hseek⟩ := t.seekField_fields sys.clkTck hfront
    (stack.toList.drop ((t.statLine sys.clkTck).length + 1))
  obtain ⟨b, rest, hbehind, hstop⟩ :=
    t.behind_ticks (stack.toList.drop ((t.statLine sys.clkTck).length + 1))
  rw [hbehind] at hseek
  have hticks := CString.strtoull_number (t.ticks_lt sys.clkTck hclk) hstop rest
  unfold procGetStartTime
  rw [hopen]
  dsimp only
  rw [hread, hline, Nat.zero_add]
  refine bind_eq_ok.mpr ⟨_, terminate_overwriteAt hfits, bind_eq_ok.mpr ⟨seek, hlast, ?_⟩⟩
  refine bind_eq_ok.mpr ⟨_, hseek, bind_eq_ok.mpr ⟨_, hticks, ?_⟩⟩
  rw [if_neg hne, t.ticks_div _ hclk]

/-- The line is read as the seconds that the entry of the same task is compared by,
however it is split into reads and whatever the command is called. -/
theorem startTime_agrees (sys : Syscalls) (stack : Vector UInt8 bufSize)
    (answers : List ReadAnswer) (ent : ProcFdEntry)
    (hopen : sys.openStat (statPath t.pid) = some ⟨t.statLine sys.clkTck, answers⟩)
    (steady : .fails .other ∉ answers) (short : (t.statLine sys.clkTck).length < 1024)
    (hclk : sys.clkTck.toNat ∣ 10 ^ 9) (hent : ent.startBoottime = t.startBoottime) :
    procGetStartTime sys stack t.pid = .ok (ent.startBoottime / nsPerSec) ∧
      (ent.startBoottime / nsPerSec).toNat = t.startBoottime.toNat / 10 ^ 9 := by
  have hstart := t.procGetStartTime_file stack hopen steady rfl short hclk
  rw [hent]
  exact ⟨hstart, UInt64.toNat_div _ _⟩

/-- A socket whose pid has gone to another task is refused, if that one has not started in
the same second. -/
theorem setMark_checked {sys : Syscalls} (stack : Vector UInt8 bufSize) {ent : ProcFdEntry}
    {f : ProcFile} {pidfd fd : Nat} (hopen : sys.openStat (statPath ent.pid.toUInt32) = some f)
    (steady : f.Steady) (hline : f.rest = t.statLine sys.clkTck)
    (short : (t.statLine sys.clkTck).length < 1024) (hclk : sys.clkTck.toNat ∣ 10 ^ 9)
    (hpidfd : sys.pidfdOpen ent.pid.toUInt32 = .ok pidfd)
    (hfd : sys.pidfdGetfd pidfd ent.fd = .ok fd) (mark : UInt32) :
    ent.setMark sys stack mark =
      .ok (if t.startBoottime / nsPerSec = ent.startBoottime / nsPerSec
        then errText (sys.setsockoptMark fd mark) else some "Mismatch in starttime") := by
  have hstart := t.procGetStartTime_file stack hopen steady hline short hclk
  unfold ProcFdEntry.setMark procSetMark
  rw [hpidfd]
  dsimp only
  rw [hfd]
  refine bind_eq_ok.mpr ⟨_, hstart, ?_⟩
  by_cases h : t.startBoottime / nsPerSec = ent.startBoottime / nsPerSec
  · simp only [h, ne_eq, not_true, if_false, if_true]
    rfl
  · simp only [h, ne_eq, not_false_eq_true, if_true, if_false]
    rfl

end StatTask

/-- A task with spaces and parentheses in its name. -/
def oddlyNamed : StatTask where
  pid := 4242
  comm := ascii ['a', ')', ' ', '1', ' ', '(', 'b']
  comm_string := by simp [ascii]
  before := List.replicate 19 ⟨ascii ['7'], by simp [ascii]⟩
  before_length := rfl
  startBoottime := 12345678901
  after := [⟨ascii ['-', '1'], by simp [ascii]⟩]

/-- The first read is interrupted, and the next ones are short. -/
def oddlyNamedSyscalls : Syscalls where
  openStat path :=
    if path = statPath oddlyNamed.pid then
      some ⟨oddlyNamed.statLine 100, [.fails .eintr, .upTo 5, .upTo 1]⟩
    else none
  clkTck := 100
  pidfdOpen pid := .ok pid.toNat
  pidfdGetfd _ fd := .ok fd.toNat
  setsockoptMark _ _ := .ok ()

theorem startTime_agrees_oddlyNamed :
    procGetStartTime oddlyNamedSyscalls (.replicate bufSize 0) 4242 =
        .ok (12345678901 / nsPerSec) ∧
      ((12345678901 : UInt64) / nsPerSec).toNat = oddlyNamed.startBoottime.toNat / 10 ^ 9 :=
  oddlyNamed.startTime_agrees oddlyNamedSyscalls (.replicate bufSize 0)
    [.fails .eintr, .upTo 5, .upTo 1] ⟨4242, 12345678901, 3⟩ (by simp [oddlyNamedSyscalls])
    (by decide) (by decide) (by decide) rfl

end Rebpf
