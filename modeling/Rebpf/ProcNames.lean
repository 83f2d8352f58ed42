import Rebpf.Fields
import Rebpf.Kernel
import Rebpf.Lib.Buckets
import Rebpf.Lib.LossyText
import Rebpf.Lib.Outcome
import Rebpf.StateFile

namespace Rebpf

open Lib

section

/- The endianness, and the arena allocator. -/
variable (e : Endian) (alloc : Nat → Option (Nat → UInt8))

/-- What `%s` prints of a name. -/
def cString (name : List UInt8) : List UInt8 := name.takeWhile (· != 0)

def entryHeader (patId len : Nat) : List UInt8 := wordBytes e patId ++ wordBytes e len

def dumpEntry (patId : Nat) (name : List UInt8) : List UInt8 :=
  entryHeader e patId name.length ++ cString name

def Task.exeName (task : Task) : List UInt8 := (task.exe.map Dentry.name).getD []

/-- The ids at the places of the table that a decision names. -/
def Kernel.matchIds (k : Kernel) (res : MatchRes) : List Nat :=
  (List.range res.tableLen).map fun i =>
    (k.mem.word e (k.masterDfa.matchIdTableOff + 4 * u32 (res.tableOff + i))).getD 0

/-- What `dump_socket_procs` writes for one file that is a socket of the task. -/
def Kernel.dumpSocketProc (k : Kernel) (family : Nat) (task : Task) : List UInt8 × Kernel :=
  if family ≠ afInet ∧ family ≠ afInet6 then ([], k)
  else if !k.hasDfa then ([], k)
  else
    let (ret, res, k) := k.needsMark e alloc task
    if ret < 0 then ([], k)
    else
      let k := k.getArena alloc
      ((k.matchIds e res).flatMap (dumpEntry e · task.exeName), k)

def Kernel.dumpSocketProcs : Kernel → List (Nat × Task) → List UInt8 × Kernel
  | k, [] => ([], k)
  | k, (family, task) :: files =>
    let (bytes, k) := k.dumpSocketProc e alloc family task
    let (more, k) := dumpSocketProcs k files
    (bytes ++ more, k)

/-- The writer's output is a sequence of entries, each with the name of a program that
holds one of the sockets. -/
theorem Kernel.dumpSocketProcs_entries (k : Kernel) (files : List (Nat × Task)) :
    ∃ entries : List (Nat × List UInt8),
      (k.dumpSocketProcs e alloc files).1 = entries.flatMap (fun x => dumpEntry e x.1 x.2) ∧
      ∀ x ∈ entries, ∃ file ∈ files, x.2 = file.2.exeName := by
  induction files generalizing k with
  | nil => exact ⟨[], rfl, fun x hx => absurd hx List.not_mem_nil⟩
  | cons file files ih =>
    have here : ∃ ids : List Nat, (k.dumpSocketProc e alloc file.1 file.2).1 =
        ids.flatMap (dumpEntry e · file.2.exeName) := by
      unfold dumpSocketProc
      split
      next => exact ⟨[], rfl⟩
      next =>
        split
        next => exact ⟨[], rfl⟩
        next =>
          dsimp only
          split
          next => exact ⟨[], rfl⟩
          next => exact ⟨_, rfl⟩
    obtain ⟨ids, hids⟩ := here
    obtain ⟨entries, hmore, hnames⟩ := ih (k.dumpSocketProc e alloc file.1 file.2).2
    refine ⟨ids.map (·, file.2.exeName) ++ entries, ?_, fun x hx => ?_⟩
    · rw [dumpSocketProcs, List.flatMap_append, List.flatMap_map, ← hids, ← hmore]
    · rcases List.mem_append.mp hx with hx | hx
      · obtain ⟨patId, _, rfl⟩ := List.mem_map.mp hx
        exact ⟨file, List.mem_cons_self, rfl⟩
      · obtain ⟨other, hother, hname⟩ := hnames x hx
        exact ⟨other, List.mem_cons_of_mem _ hother, hname⟩

end

theorem textBytes_eq (s : String) : textBytes s = utf8Bytes s := by
  rw [textBytes, utf8Bytes, String.toUTF8, ← String.utf8Encode_toList, List.utf8Encode,
    List.data_toByteArray]

/-- An entry of the stream: its name is text of a length that its word holds. -/
structure ProcEntry where
  patId : Nat
  name : String
  patId_lt : patId < 2 ^ 31
  nulFree : 0 ∉ textBytes name
  short : (textBytes name).length < 2 ^ 32
deriving DecidableEq

def ProcEntry.written (e : Endian) (x : ProcEntry) : List UInt8 :=
  dumpEntry e x.patId (textBytes x.name)

/-- `parse_i32` and `parse_u32`. -/
structure WordParsers where
  parseI32 : List UInt8 → Option Int
  parseU32 : List UInt8 → Option Nat

/-- The number that a word stands for as an `i32`. -/
def signed (w : Nat) : Int := if w < 2 ^ 31 then w else (w : Int) - 2 ^ 32

/-- Four bytes are read as a word in the order of the machine. -/
structure WordParsers.Native (p : WordParsers) (e : Endian) : Prop where
  i32 : ∀ a b c d, p.parseI32 [a, b, c, d] = some (signed (wordOf e a b c d))
  u32 : ∀ a b c d, p.parseU32 [a, b, c, d] = some (wordOf e a b c d)

def wordIn (e : Endian) : List UInt8 → Option Nat
  | [a, b, c, d] => some (wordOf e a b c d)
  | _ => none

def nativeParsers (e : Endian) : WordParsers := ⟨fun c => (wordIn e c).map signed, wordIn e⟩

theorem nativeParsers_native (e : Endian) : (nativeParsers e).Native e :=
  ⟨fun _ _ _ _ => rfl, fun _ _ _ _ => rfl⟩

def sliceOf (c : List UInt8) (i j : Nat) : Except Failure (List UInt8) :=
  if i ≤ j ∧ j ≤ c.length then .ok ((c.take j).drop i) else .error .panic

section

variable (p : WordParsers)

def procHeader (c : List UInt8) : Except Failure (Int × Nat) := do
  let patId ← orErr (p.parseI32 (← sliceOf c 0 4)) .panic
  let len ← orErr (p.parseU32 (← sliceOf c 4 8)) .panic
  return (patId, len)

/-- The loop over the buffer; `none` when the fuel is used up. -/
def procLoop : Nat → List UInt8 → List (List String) → Option (Except Failure (List (List String)))
  | 0, _, _ => none
  | fuel + 1, c, h =>
    if c.isEmpty then some (.ok h)
    else
      match procHeader p c with
      | .error f => some (.error f)
      | .ok (patId, len) =>
        -- The rest of the buffer stays as it is.
        if patId < 0 then procLoop fuel c h
        else
          match sliceOf c 8 (8 + len) with
          | .error f => some (.error f)
          | .ok name =>
            procLoop fuel (c.drop (8 + len)) (addToBucket h patId.toNat (fromUtf8Lossy name))

def procRecord (patId : Nat) (basename : String) : Fields :=
  [("match-id", toString patId), ("basename", basename)]

def getProcNames (fuel : Nat) (buf : List UInt8) : Option (Except Failure (List Fields)) :=
  (procLoop p fuel buf []).map (·.map fun h =>
    h.zipIdx.flatMap fun row => row.1.map (procRecord row.2))

end

/-- A buffer of whole entries and then a whole header whose id is negative. -/
inductive NegativeEntry (e : Endian) : List UInt8 → Prop
  | here {patId len tail} : 2 ^ 31 ≤ patId → patId < 2 ^ 32 → len < 2 ^ 32 →
      NegativeEntry e (entryHeader e patId len ++ tail)
  | later {patId name rest} : patId < 2 ^ 31 → name.length < 2 ^ 32 → NegativeEntry e rest →
      NegativeEntry e (entryHeader e patId name.length ++ (name ++ rest))

section

variable {p : WordParsers} {e : Endian} {c : List UInt8} {h : List (List String)}

theorem split_entryHeader (hlength : 8 ≤ c.length) : ∃ patId len rest,
    patId < 2 ^ 32 ∧ len < 2 ^ 32 ∧ c = entryHeader e patId len ++ rest := by
  match c, hlength with
  | a₀ :: a₁ :: a₂ :: a₃ :: b₀ :: b₁ :: b₂ :: b₃ :: rest, _ =>
    refine ⟨wordOf e a₀ a₁ a₂ a₃, wordOf e b₀ b₁ b₂ b₃, rest, wordOf_lt .., wordOf_lt .., ?_⟩
    rw [entryHeader, wordBytes_wordOf, wordBytes_wordOf]
    rfl

@[simp] theorem entryHeader_length (e : Endian) (patId len : Nat) :
    (entryHeader e patId len).length = 8 := by
  rw [entryHeader, List.length_append, wordBytes_length, wordBytes_length]

theorem procHeader_short (hlength : c.length < 8) : ∃ f, procHeader p c = .error f := by
  cases hheader : procHeader p c with
  | error f => exact ⟨f, rfl⟩
  | ok header =>
    simp only [procHeader, bind_eq_ok] at hheader
    obtain ⟨_, _, _, _, bytes, hbytes, _⟩ := hheader
    rw [sliceOf, if_neg (by omega)] at hbytes
    cases hbytes

theorem procHeader_entry (native : p.Native e) {patId len : Nat} (hid : patId < 2 ^ 32)
    (hlen : len < 2 ^ 32) (rest : List UInt8) :
    procHeader p (entryHeader e patId len ++ rest) = .ok (signed patId, len) := by
  obtain ⟨a₀, a₁, a₂, a₃, ha, hpatId⟩ := wordBytes_eq e patId
  obtain ⟨b₀, b₁, b₂, b₃, hb, hlenOf⟩ := wordBytes_eq e len
  rw [Nat.mod_eq_of_lt hid] at hpatId
  rw [Nat.mod_eq_of_lt hlen] at hlenOf
  have hfirst : sliceOf (entryHeader e patId len ++ rest) 0 4 = .ok [a₀, a₁, a₂, a₃] := by
    rw [entryHeader, ha, hb]
    exact if_pos (by simp)
  have hsecond : sliceOf (entryHeader e patId len ++ rest) 4 8 = .ok [b₀, b₁, b₂, b₃] := by
    rw [entryHeader, ha, hb]
    exact if_pos (by simp)
  rw [procHeader, hfirst, hsecond]
  simp only [bind, Except.bind, native.i32, native.u32, orErr, hpatId, hlenOf]
  rfl

/-- What one turn of the loop does once the header is read. -/
theorem procLoop_header (native : p.Native e) {patId len : Nat} (hid : patId < 2 ^ 32)
    (hlen : len < 2 ^ 32) (fuel : Nat) (rest : List UInt8) :
    procLoop p (fuel + 1) (entryHeader e patId len ++ rest) h =
      if 2 ^ 31 ≤ patId then procLoop p fuel (entryHeader e patId len ++ rest) h
      else if rest.length < len then some (.error .panic)
      else procLoop p fuel (rest.drop len)
        (addToBucket h patId (fromUtf8Lossy (rest.take len))) := by
  have hfull : (entryHeader e patId len ++ rest).isEmpty = false := by
    rw [List.isEmpty_eq_false_iff, ← List.length_pos_iff, List.length_append, entryHeader_length]
    omega
  rw [procLoop, hfull, if_neg Bool.false_ne_true, procHeader_entry native hid hlen]
  dsimp only
  by_cases hneg : 2 ^ 31 ≤ patId
  · have hsigned : signed patId < 0 := by
      rw [signed, if_neg (by omega)]
      omega
    rw [if_pos hsigned, if_pos hneg]
  · have hsigned : signed patId = patId := if_pos (by omega)
    rw [hsigned, if_neg (by omega), if_neg hneg, sliceOf, List.length_append, entryHeader_length]
    by_cases hcut : rest.length < len
    · rw [if_neg (by omega), if_pos hcut]
    · have hname : ((entryHeader e patId len ++ rest).take (8 + len)).drop 8 = rest.take len := by
        rw [List.drop_take, List.drop_left' (entryHeader_length e patId len),
          Nat.add_sub_cancel_left]
      have hrest : (entryHeader e patId len ++ rest).drop (8 + len) = rest.drop len := by
        rw [← List.drop_drop, List.drop_left' (entryHeader_length e patId len)]
      rw [if_pos (by omega), if_neg hcut, hname, hrest]
      rfl

theorem procLoop_entry (native : p.Native e) {patId : Nat} {name : List UInt8}
    (hid : patId < 2 ^ 31) (hlen : name.length < 2 ^ 32) (fuel : Nat) (rest : List UInt8) :
    procLoop p (fuel + 1) (entryHeader e patId name.length ++ (name ++ rest)) h =
      procLoop p fuel rest (addToBucket h patId (fromUtf8Lossy name)) := by
  have hwhole : ¬(name ++ rest).length < name.length := by
    rw [List.length_append]
    omega
  rw [procLoop_header native (by omega) hlen, if_neg (by omega), if_neg hwhole, List.drop_left,
    List.take_left]

theorem ProcEntry.written_eq (x : ProcEntry) :
    x.written e = entryHeader e x.patId (textBytes x.name).length ++ textBytes x.name := by
  have hwhole : cString (textBytes x.name) = textBytes x.name := by
    refine List.takeWhile_eq_self_iff.mpr fun b hb => ?_
    have hne : b ≠ 0 := fun hzero => x.nulFree (hzero ▸ hb)
    simpa using hne
  rw [written, dumpEntry, hwhole]

/-- The loop reads off what is written, one entry a turn. -/
theorem procLoop_written (native : p.Native e) {done : List ProcEntry} (xs : List ProcEntry)
    (holds : HoldsBuckets ProcEntry.patId ProcEntry.name h done) {fuel : Nat}
    (enough : xs.length < fuel) :
    ∃ table, procLoop p fuel (xs.flatMap (ProcEntry.written e)) h = some (.ok table) ∧
      HoldsBuckets ProcEntry.patId ProcEntry.name table (done ++ xs) := by
  obtain ⟨fuel, rfl⟩ : ∃ n, fuel = n + 1 := Nat.exists_eq_succ_of_ne_zero (by omega)
  induction xs generalizing h done fuel with
  | nil => exact ⟨h, rfl, by rwa [List.append_nil]⟩
  | cons x xs ih =>
    obtain ⟨fuel, rfl⟩ : ∃ n, fuel = n + 1 := Nat.exists_eq_succ_of_ne_zero (by
      rw [List.length_cons] at enough
      omega)
    obtain ⟨table, hrun, htable⟩ := ih (holds.add x) fuel (Nat.lt_of_succ_lt_succ enough)
    refine ⟨table, ?_, by rwa [List.append_assoc] at htable⟩
    rw [List.flatMap_cons, ProcEntry.written_eq, List.append_assoc,
      procLoop_entry native x.patId_lt x.short, textBytes_eq, fromUtf8Lossy_utf8Bytes]
    exact hrun

/-- The records are the entries, by ascending id and for one id in stream order. -/
theorem getProcNames_written (native : p.Native e) (xs : List ProcEntry) {fuel : Nat}
    (enough : xs.length < fuel) :
    ∃ sorted : List ProcEntry,
      getProcNames p fuel (xs.flatMap (ProcEntry.written e)) =
        some (.ok (sorted.map fun x => procRecord x.patId x.name)) ∧
      sorted.Perm xs ∧ sorted.Pairwise (fun x y => x.patId ≤ y.patId) ∧
      ∀ patId, sorted.filter (·.patId == patId) = xs.filter (·.patId == patId) := by
  obtain ⟨table, hrun, holds⟩ := @procLoop_written p e [] native [] xs HoldsBuckets.nil fuel enough
  rw [List.nil_append] at holds
  have same := grouped_filter fun x hx => holds.key_lt hx
  refine ⟨grouped ProcEntry.patId table.length xs, ?_, perm_of_filter_key same,
    grouped_pairwise _ _ _, same⟩
  rw [getProcNames, hrun, ← holds.flatMap procRecord]
  rfl

def curlEntry : ProcEntry where
  patId := 1
  name := "curl"
  patId_lt := by decide
  nulFree := by decide
  short := by decide

def sshdEntry : ProcEntry where
  patId := 0
  name := "sshd"
  patId_lt := by decide
  nulFree := by decide
  short := by decide

theorem getProcNames_written_three :
    ∃ sorted : List ProcEntry,
      getProcNames (nativeParsers .little) 4
          ([curlEntry, sshdEntry, curlEntry].flatMap (ProcEntry.written .little)) =
        some (.ok (sorted.map fun x => procRecord x.patId x.name)) ∧
      sorted.Perm [curlEntry, sshdEntry, curlEntry] ∧
      sorted.Pairwise (fun x y => x.patId ≤ y.patId) ∧
      ∀ patId, sorted.filter (·.patId == patId) =
        [curlEntry, sshdEntry, curlEntry].filter (·.patId == patId) :=
  getProcNames_written (nativeParsers_native .little) _ (by decide)

theorem NegativeEntry.procLoop_none (native : p.Native e) (hneg : NegativeEntry e c)
    (fuel : Nat) : procLoop p fuel c h = none := by
  induction hneg generalizing h fuel with
  | @here patId len tail hlow hid hlen =>
    induction fuel with
    | zero => rfl
    | succ fuel ih => rw [procLoop_header native hid hlen, if_pos hlow, ih]
  | @later patId name rest hid hlen _ ih =>
    cases fuel with
    | zero => rfl
    | succ fuel => rw [procLoop_entry native hid hlen, ih]

/-- Every other buffer gets shorter turn by turn, up to its end or a panic. -/
theorem procLoop_ends (native : p.Native e) (hneg : ¬NegativeEntry e c) :
    ∃ fuel, (procLoop p fuel c h).isSome := by
  induction hn : c.length using Nat.strong_induction_on generalizing c h with
  | h n ih =>
    subst hn
    rcases Nat.lt_or_ge c.length 8 with hshort | hlong
    · refine ⟨1, ?_⟩
      obtain ⟨f, hf⟩ := @procHeader_short p c hshort
      rw [procLoop, hf]
      split <;> rfl
    · obtain ⟨patId, len, rest, hid, hlen, rfl⟩ := @split_entryHeader e c hlong
      have hpos : ¬2 ^ 31 ≤ patId := fun hlow => hneg (.here hlow hid hlen)
      rcases Nat.lt_or_ge rest.length len with hcut | hwhole
      · exact ⟨1, by rw [procLoop_header native hid hlen, if_neg hpos, if_pos hcut]; rfl⟩
      · have htake : (rest.take len).length = len := List.length_take_of_le hwhole
        have hlater : ¬NegativeEntry e (rest.drop len) := by
          intro hrest
          have hwhole := NegativeEntry.later (Nat.lt_of_not_le hpos) (htake.symm ▸ hlen) hrest
          rw [htake, List.take_append_drop] at hwhole
          exact hneg hwhole
        have hless : (rest.drop len).length < (entryHeader e patId len ++ rest).length := by
          rw [List.length_append, entryHeader_length, List.length_drop]
          omega
        obtain ⟨fuel, hfuel⟩ := ih _ hless
          (h := addToBucket h patId (fromUtf8Lossy (rest.take len))) hlater rfl
        refine ⟨fuel + 1, ?_⟩
        rwa [procLoop_header native hid hlen, if_neg hpos, if_neg (Nat.not_lt.mpr hwhole)]

theorem NegativeEntry.getProcNames_none (native : p.Native e) (hneg : NegativeEntry e c)
    (fuel : Nat) : getProcNames p fuel c = none := by
  rw [getProcNames, hneg.procLoop_none native]
  rfl

/-- The decoder returns, with records or a panic, unless it comes upon a negative id;
there it turns for ever. -/
theorem getProcNames_ends_iff (native : p.Native e) (buf : List UInt8) :
    (∃ fuel, (getProcNames p fuel buf).isSome) ↔ ¬NegativeEntry e buf := by
  constructor
  · rintro ⟨fuel, hfuel⟩ hneg
    rw [hneg.getProcNames_none native] at hfuel
    cases hfuel
  · intro hneg
    obtain ⟨fuel, hfuel⟩ := @procLoop_ends p e buf [] native hneg
    exact ⟨fuel, by rwa [getProcNames, Option.isSome_map]⟩

/-- An eight-byte buffer whose id is `-1`. -/
def negativeBuffer : List UInt8 := [255, 255, 255, 255, 0, 0, 0, 0]

theorem negativeBuffer_negative : NegativeEntry .little negativeBuffer := by
  have hbytes : entryHeader .little (2 ^ 32 - 1) 0 ++ [] = negativeBuffer := by decide
  exact hbytes ▸ .here (by decide) (by decide) (by decide)

theorem getProcNames_ends_iff_negative :
    (∃ fuel, (getProcNames (nativeParsers .little) fuel negativeBuffer).isSome) ↔
      ¬NegativeEntry .little negativeBuffer :=
  getProcNames_ends_iff (nativeParsers_native .little) negativeBuffer

theorem not_getProcNames_ends : ¬∀ (p : WordParsers) (e : Endian) (buf : List UInt8),
    p.Native e → ∃ fuel, (getProcNames p fuel buf).isSome := by
  intro ends
  obtain ⟨fuel, hfuel⟩ := ends _ _ negativeBuffer (nativeParsers_native .little)
  rw [negativeBuffer_negative.getProcNames_none (nativeParsers_native .little)] at hfuel
  cases hfuel

end

end Rebpf
