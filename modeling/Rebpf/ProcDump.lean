import Rebpf.SocketDump
import Rebpf.StartTime

namespace Rebpf

open Lib

/-- `ptr`, `len` and `cap`, kept from call to call. -/
structure NamesBuf where
  bytes : List UInt8
  len : Nat
deriving DecidableEq, Repr

def NamesBuf.cap (b : NamesBuf) : Nat := b.bytes.length

def NamesBuf.read (b : NamesBuf) : List UInt8 := b.bytes.take b.len

/-- Before each read there is to be room. What `realloc` adds is not set. -/
def NamesBuf.grow (junk : Nat → UInt8) (b : NamesBuf) : NamesBuf :=
  if b.len < b.cap then b
  else
    let cap := if b.cap = 0 then 2048 else b.cap * 2
    { b with bytes := b.bytes ++ (List.range (cap - b.cap)).map junk }

section

variable (junk : Nat → UInt8)

/-- The process exits when a read fails. -/
def dumpLoop (f : ProcFile) (b : NamesBuf) : Option NamesBuf :=
  match _ : f.read ((b.grow junk).cap - b.len) with
  | (.error _, _) => none
  | (.ok [], _) => some (b.grow junk)
  | (.ok (x :: bytes), f) =>
    dumpLoop f ⟨overwriteAt (b.grow junk).bytes b.len (x :: bytes), b.len + (x :: bytes).length⟩
termination_by f.size
decreasing_by
  next h =>
    obtain ⟨hrest, hanswers, _⟩ := ProcFile.read_ok h
    simp only [ProcFile.size, hrest, List.length_append, List.length_cons]
    omega

def bpfGetProcNames (f : ProcFile) (b : NamesBuf) : Option NamesBuf :=
  dumpLoop junk f { b with len := 0 }

end

section

variable {junk : Nat → UInt8} {f g : ProcFile} {b b' : NamesBuf}

theorem NamesBuf.grow_spec (junk : Nat → UInt8) (h : b.len ≤ b.cap) :
    (b.grow junk).len = b.len ∧ b.len < (b.grow junk).cap ∧ (b.grow junk).read = b.read := by
  unfold grow
  split
  next hroom => exact ⟨rfl, hroom, rfl⟩
  next hfull =>
    refine ⟨rfl, ?_, ?_⟩
    · have hmore : b.cap < if b.cap = 0 then 2048 else b.cap * 2 := by
        split
        next => omega
        next => omega
      change b.len < (b.bytes ++ _).length
      rw [List.length_append, List.length_map, List.length_range]
      change b.len < b.cap + _
      omega
    · rw [read, read, List.take_append_of_le_length h]

theorem ProcFile.read_length {bytes : List UInt8} {count : Nat}
    (h : f.read count = (.ok bytes, g)) : bytes.length ≤ count := by
  unfold read at h
  split at h
  next =>
    cases h
    exact List.length_take_le _ _
  next =>
    cases h
    exact Nat.le_trans (List.length_take_le _ _) (Nat.min_le_right _ _)
  next => cases h

theorem ProcFile.read_answers {bytes : List UInt8} {count : Nat}
    (h : f.read count = (.ok bytes, g)) : ∀ a ∈ g.answers, a ∈ f.answers := by
  unfold read at h
  split at h
  next hanswers =>
    cases h
    exact fun a ha => ha
  next hanswers =>
    cases h
    exact fun a ha => hanswers ▸ List.mem_cons_of_mem _ ha
  next => cases h

theorem take_overwriteAt {buf bytes : List UInt8} {len : Nat}
    (h : len + bytes.length ≤ buf.length) :
    (overwriteAt buf len bytes).take (len + bytes.length) = buf.take len ++ bytes := by
  have hlen : (buf.take len ++ bytes).length = len + bytes.length := by
    rw [List.length_append, List.length_take_of_le (by omega)]
  rw [overwriteAt, ← hlen, List.take_left]

/-- One read gets bytes for as long as there are any, and they go behind those read. -/
theorem NamesBuf.read_more {bytes : List UInt8} (h : b.len ≤ b.cap)
    (more : f.read ((b.grow junk).cap - b.len) = (.ok bytes, g)) :
    f.rest = bytes ++ g.rest ∧ (bytes = [] → f.rest = []) ∧
      NamesBuf.len ⟨overwriteAt (b.grow junk).bytes b.len bytes, b.len + bytes.length⟩ ≤
        NamesBuf.cap ⟨overwriteAt (b.grow junk).bytes b.len bytes, b.len + bytes.length⟩ ∧
      NamesBuf.read ⟨overwriteAt (b.grow junk).bytes b.len bytes, b.len + bytes.length⟩ =
        b.read ++ bytes := by
  obtain ⟨hlen, hroom, hread⟩ := NamesBuf.grow_spec junk h
  obtain ⟨hrest, _, hend, _⟩ := ProcFile.read_ok more
  have hfits := ProcFile.read_length more
  have hbound : b.len + bytes.length ≤ (b.grow junk).bytes.length := by
    rw [← NamesBuf.cap]
    omega
  refine ⟨hrest, hend (by omega), ?_, ?_⟩
  · rwa [NamesBuf.cap, overwriteAt_length hbound]
  · rw [NamesBuf.read, take_overwriteAt hbound, ← hread, NamesBuf.read, hlen]

variable (junk) in
/-- The buffer ends up with the whole stream, however the reads cut it. -/
theorem dumpLoop_whole (h : b.len ≤ b.cap) (answered : ∀ err, .fails err ∉ f.answers) :
    ∃ b', dumpLoop junk f b = some b' ∧ b'.read = b.read ++ f.rest ∧ b'.len < b'.cap := by
  fun_induction dumpLoop junk f b with
  | case1 f b err g more =>
    obtain ⟨_, hfails⟩ := ProcFile.read_error more
    exact absurd (hfails ▸ List.mem_cons_self) (answered err)
  | case2 f b g more =>
    obtain ⟨hrest, hend, _⟩ := NamesBuf.read_more h more
    obtain ⟨hlen, hroom, hread⟩ := NamesBuf.grow_spec junk h
    exact ⟨_, rfl, by rw [hread, hend rfl, List.append_nil], by rwa [hlen]⟩
  | case3 f b x bytes g more ih =>
    obtain ⟨hrest, _, hfits, hread⟩ := NamesBuf.read_more h more
    obtain ⟨b', hrun, hall, hroom⟩ := ih hfits fun err herr =>
      answered err (ProcFile.read_answers more _ herr)
    exact ⟨b', hrun, by rw [hall, hread, hrest, List.append_assoc], hroom⟩

theorem bpfGetProcNames_whole (junk : Nat → UInt8) (b : NamesBuf)
    (answered : ∀ err, .fails err ∉ f.answers) :
    ∃ b', bpfGetProcNames junk f b = some b' ∧ b'.read = f.rest ∧ b'.len < b'.cap := by
  obtain ⟨b', hrun, hread, hroom⟩ :=
    dumpLoop_whole junk (b := ⟨b.bytes, 0⟩) (Nat.zero_le _) answered
  exact ⟨b', hrun, hread, hroom⟩

end

/-- What the daemon keeps between calls: the time of the last dump, its records, the buffer. -/
structure NamesCtx where
  matchesTime : Nat
  records : List Fields
  buf : NamesBuf
deriving DecidableEq, Repr

def NamesCtx.init (now : Nat) : NamesCtx := ⟨now, [], ⟨[], 0⟩⟩

/-- A call of `get_proc_names`, `now` in nanoseconds. There is no state after a call that
exits the process, panics or loops for ever. -/
def NamesCtx.getProcNames (p : WordParsers) (junk : Nat → UInt8) (now : Nat) (dump : ProcFile)
    (ctx : NamesCtx) : Option NamesCtx :=
  if 1000000000 < now - ctx.matchesTime then
    match bpfGetProcNames junk dump ctx.buf with
    | none => none
    | some buf =>
      match Rebpf.getProcNames p (buf.len + 1) buf.read with
      | some (.ok records) => some ⟨now, records, buf⟩
      | _ => none
  else some ctx

/-- A call, with the list and the kernel of that moment, the files that the kernel walks
through and how it answers the reads. -/
structure Poll where
  now : Nat
  inForce : Matches
  kernel : Kernel
  files : List (Nat × Task)
  answers : List ReadAnswer

section

variable (c : Crates) (e : Endian) (alloc : Nat → Option (Nat → UInt8)) (accepts : Accepts)

def Poll.dump (poll : Poll) : ProcFile :=
  ⟨(poll.kernel.dumpSocketProcs e alloc poll.files).1, poll.answers⟩

def NamesCtx.serve (p : WordParsers) (junk : Nat → UInt8) (ctx : NamesCtx) (poll : Poll) :
    Option NamesCtx :=
  ctx.getProcNames p junk poll.now (poll.dump e alloc)

/-- For each socket whose task an entry decides on: the place of the entry, and the name. -/
def Poll.rows (poll : Poll) : List (Nat × List UInt8) :=
  if poll.kernel.hasDfa then
    poll.files.flatMap fun file =>
      (reportedIds c accepts poll.inForce.entries file).map (·, file.2.exeName)
  else []

structure Poll.Sound (poll : Poll) : Prop where
  runs : poll.kernel.hasDfa = true → ∃ b out, poll.kernel.Runs c e poll.inForce b out
  short : poll.inForce.entries.length ≤ 2 ^ 31
  walked : Walked e alloc poll.kernel poll.files
  nulFree : ∀ file ∈ poll.files, 0 ∉ file.2.exeName
  answered : ∀ err, .fails err ∉ poll.answers

end

section

variable {c : Crates} {e : Endian} {alloc : Nat → Option (Nat → UInt8)} {accepts : Accepts}
  {p : WordParsers} {junk : Nat → UInt8} {poll : Poll} {ctx : NamesCtx}

theorem dumpEntry_eq {patId : Nat} {name : List UInt8} (nulFree : 0 ∉ name) :
    dumpEntry e patId name = entryHeader e patId name.length ++ name := by
  have hwhole : cString name = name := by
    refine List.takeWhile_eq_self_iff.mpr fun b hb => ?_
    have hne : b ≠ 0 := fun hzero => nulFree (hzero ▸ hb)
    simpa using hne
  rw [dumpEntry, hwhole]

theorem Dentry.NamesFit.name_length {d : Dentry} (fit : d.NamesFit) :
    d.name.length ≤ nameMax + 1 := by
  cases d with
  | root name => exact fit
  | child name parent => exact fit.1

/-- A row that the stream has room for. -/
structure RowFits (row : Nat × List UInt8) : Prop where
  id_lt : row.1 < 2 ^ 31
  nulFree : 0 ∉ row.2
  short : row.2.length < 2 ^ 32

theorem Poll.mem_rows {row : Nat × List UInt8} : row ∈ poll.rows c accepts ↔
    poll.kernel.hasDfa = true ∧ ∃ file ∈ poll.files,
      row ∈ (reportedIds c accepts poll.inForce.entries file).map (·, file.2.exeName) := by
  unfold rows
  split
  next loaded => rw [List.mem_flatMap, and_iff_right loaded]
  next unloaded => exact iff_of_false List.not_mem_nil fun h => unloaded h.1

theorem Poll.Sound.rows_fit (sound : poll.Sound c e alloc) :
    ∀ row ∈ poll.rows c accepts, RowFits row := by
  intro row hrow
  obtain ⟨_, file, hfile, hrow⟩ := Poll.mem_rows.mp hrow
  obtain ⟨patId, hid, rfl⟩ := List.mem_map.mp hrow
  have short := sound.short
  refine ⟨?_, sound.nulFree file hfile, ?_⟩
  · unfold reportedIds at hid
    split at hid
    next =>
      have hlt := decidingIndex_lt (Option.mem_toList.mp hid)
      dsimp only
      omega
    next => cases hid
  · change file.2.exeName.length < 2 ^ 32
    cases hexe : file.2.exe with
    | none => simp [Task.exeName, hexe]
    | some exe =>
      have hname := (sound.walked.fit file hfile exe hexe).2.name_length
      rw [Task.exeName, hexe]
      exact Nat.lt_of_le_of_lt hname (by decide)

theorem Poll.Sound.dump_rest (sound : poll.Sound c e alloc) (aligned : c.PadsToWord)
    (first : c.LeftmostFirst accepts) :
    (poll.dump e alloc).rest = (poll.rows c accepts).flatMap fun row => dumpEntry e row.1 row.2 := by
  unfold dump rows
  split
  next loaded =>
    obtain ⟨b, out, runs⟩ := sound.runs loaded
    rw [runs.dumpSocketProcs aligned first sound.short sound.walked, List.flatMap_assoc]
    exact List.flatMap_congr fun file _ => by rw [List.flatMap_map]
  next unloaded =>
    rw [Kernel.dumpSocketProcs_unloaded (Bool.eq_false_iff.mpr unloaded)]
    rfl

/-- The decoder's table holds the rows that are in the stream. -/
theorem procLoop_rows (native : p.Native e) {rows done : List (Nat × List UInt8)}
    {h : List (List String)} (fit : ∀ row ∈ rows, RowFits row)
    (holds : HoldsBuckets Prod.fst (fun row => fromUtf8Lossy row.2) h done) {fuel : Nat}
    (enough : rows.length < fuel) :
    ∃ table, procLoop p fuel (rows.flatMap fun row => dumpEntry e row.1 row.2) h =
        some (.ok table) ∧
      HoldsBuckets Prod.fst (fun row => fromUtf8Lossy row.2) table (done ++ rows) := by
  obtain ⟨fuel, rfl⟩ : ∃ n, fuel = n + 1 := Nat.exists_eq_succ_of_ne_zero (by omega)
  induction rows generalizing h done fuel with
  | nil => exact ⟨h, rfl, by rwa [List.append_nil]⟩
  | cons row rows ih =>
    obtain ⟨fuel, rfl⟩ : ∃ n, fuel = n + 1 := Nat.exists_eq_succ_of_ne_zero (by
      rw [List.length_cons] at enough
      omega)
    obtain ⟨hid, nulFree, hlen⟩ := fit row List.mem_cons_self
    obtain ⟨table, hrun, htable⟩ := ih (fun row hrow => fit row (List.mem_cons_of_mem _ hrow))
      (holds.add row) fuel (Nat.lt_of_succ_lt_succ enough)
    refine ⟨table, ?_, by rwa [List.append_assoc] at htable⟩
    rw [List.flatMap_cons, dumpEntry_eq nulFree, List.append_assoc,
      procLoop_entry native hid hlen]
    exact hrun

theorem getProcNames_rows (native : p.Native e) {rows : List (Nat × List UInt8)}
    (fit : ∀ row ∈ rows, RowFits row) {fuel : Nat} (enough : rows.length < fuel) :
    ∃ records, getProcNames p fuel (rows.flatMap fun row => dumpEntry e row.1 row.2) =
        some (.ok records) ∧
      records.Perm (rows.map fun row => procRecord row.1 (fromUtf8Lossy row.2)) := by
  obtain ⟨table, hrun, holds⟩ := procLoop_rows native fit HoldsBuckets.nil enough
  rw [List.nil_append] at holds
  refine ⟨_, by rw [getProcNames, hrun]; rfl, ?_⟩
  dsimp only
  rw [holds.flatMap procRecord]
  exact (perm_of_filter_key (grouped_filter fun x hx => holds.key_lt hx)).map _

theorem length_le_dump (rows : List (Nat × List UInt8)) :
    rows.length ≤ (rows.flatMap fun row => dumpEntry e row.1 row.2).length := by
  induction rows with
  | nil => exact Nat.le_refl _
  | cons row rows ih =>
    rw [List.flatMap_cons, List.length_append, dumpEntry, List.length_append, entryHeader_length,
      List.length_cons]
    omega

/-- What holds of the records after some calls: they are the rows of the call they are from. -/
structure NamesCtx.Shows (c : Crates) (accepts : Accepts) (start : Nat) (ctx : NamesCtx)
    (past : List Poll) : Prop where
  fits : ctx.buf.len ≤ ctx.buf.cap
  shown : (ctx.matchesTime = start ∧ ctx.records = []) ∨ ∃ poll ∈ past,
    ctx.matchesTime = poll.now ∧ ctx.records.Perm
      ((poll.rows c accepts).map fun row => procRecord row.1 (fromUtf8Lossy row.2))

variable (junk) in
/-- A call gets an answer that is a second old at most. -/
theorem NamesCtx.Shows.serve {start : Nat} {past : List Poll}
    (shows : ctx.Shows c accepts start past) (sound : poll.Sound c e alloc)
    (native : p.Native e) (aligned : c.PadsToWord) (first : c.LeftmostFirst accepts) :
    ∃ ctx', ctx.serve e alloc p junk poll = some ctx' ∧
      poll.now ≤ ctx'.matchesTime + 1000000000 ∧ ctx'.Shows c accepts start (past ++ [poll]) := by
  unfold NamesCtx.serve NamesCtx.getProcNames
  split
  next hold =>
    obtain ⟨buf, hdump, hread, hroom⟩ := bpfGetProcNames_whole junk ctx.buf
      (f := poll.dump e alloc) sound.answered
    rw [sound.dump_rest aligned first] at hread
    have hlen : buf.read.length = buf.len := List.length_take_of_le (Nat.le_of_lt hroom)
    have hrows := length_le_dump (e := e) (poll.rows c accepts)
    have enough : (poll.rows c accepts).length < buf.len + 1 := by
      rw [hread] at hlen
      omega
    obtain ⟨records, hrecords, perm⟩ := getProcNames_rows native sound.rows_fit enough
    rw [← hread] at hrecords
    rw [hdump]
    dsimp only
    rw [hrecords]
    exact ⟨_, rfl, Nat.le_add_right _ _, Nat.le_of_lt hroom,
      .inr ⟨poll, List.mem_append_right _ List.mem_cons_self, rfl, perm⟩⟩
  next hfresh =>
    refine ⟨ctx, rfl, by omega, shows.fits, shows.shown.imp_right ?_⟩
    rintro ⟨seen, hseen, shown⟩
    exact ⟨seen, List.mem_append_left _ hseen, shown⟩

end

end Rebpf
