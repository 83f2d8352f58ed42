import Rebpf.Lib.Tlv
import Rebpf.Netlink

namespace Rebpf

open Lib

/-- The header of a route message. -/
structure Rtmsg where
  rtmFamily : UInt8
  rtmDstLen : UInt8
  rtmSrcLen : UInt8
  rtmTos : UInt8
  rtmTable : UInt8
  rtmProtocol : UInt8
  rtmScope : UInt8
  rtmType : UInt8
  rtmFlags : UInt32
deriving DecidableEq, Repr

namespace Rtmsg

def asSlice (e : Endian) (h : Rtmsg) : List UInt8 :=
  [h.rtmFamily, h.rtmDstLen, h.rtmSrcLen, h.rtmTos, h.rtmTable, h.rtmProtocol, h.rtmScope,
    h.rtmType] ++ wordBytes e h.rtmFlags.toNat

def len : Nat := 12

theorem asSlice_length (e : Endian) (h : Rtmsg) : (h.asSlice e).length = len := by
  cases e <;> rfl

end Rtmsg

/-- `IterableChunks`, with the places of its payloads in the slice, and the reader of
the table attribute. -/
structure RouteAttrs where
  iterableChunks : List UInt8 → List Tlv.Chunk
  getTable : List UInt8 → Option UInt32

def readU32 (e : Endian) : List UInt8 → Option UInt32
  | [a, b, c, d] => some (.ofNat (wordOf e a b c d))
  | _ => none

def rtaTable : Nat := 15

/-- The table that the first table attribute names. -/
def firstTable (e : Endian) (attrs : List Tlv) : Option UInt32 :=
  (attrs.find? (·.type == rtaTable)).bind fun a => readU32 e a.payload

/-- The iterator yields the top-level attributes in order, and the reader reads the
first table attribute. -/
structure RouteAttrs.Reads (lib : RouteAttrs) (e : Endian) : Prop where
  chunks : ∀ attrs, Tlv.WellFormed attrs →
    lib.iterableChunks (Tlv.encodeAll e attrs) = Tlv.chunksAt 0 attrs
  table : ∀ attrs, Tlv.WellFormed attrs →
    lib.getTable (Tlv.encodeAll e attrs) = firstTable e attrs

section

variable (lib : RouteAttrs) (e : Endian) (newMark : UInt32)

/-- Writes the mark where the payload of the first table attribute stands. -/
def replaceTableId (buf : List UInt8) : Except Failure (List UInt8) :=
  -- The address of the payload less that of the buffer.
  let pos := match (lib.iterableChunks (buf.drop Rtmsg.len)).find? (·.type == rtaTable) with
    | some chunk => Rtmsg.len + chunk.start
    | none => 0
  if pos + 4 ≤ buf.length then
    .ok (buf.take pos ++ wordBytes e newMark.toNat ++ buf.drop (pos + 4))
  else .error .panic

/-- The request for one message of the dump, if there is one. -/
def cloneRoute (h : Rtmsg) (attrs : List UInt8) : Except Failure (Option (List UInt8)) :=
  if (lib.getTable attrs).getD 0 ≠ rtTableMain then .ok none
  -- Destinations like 0.0.0.0/0, 0.0.0.0/1 and 128.0.0.0/1 are left out.
  else if h.rtmDstLen ≤ 1 then .ok none
  else
    let h := { h with rtmTable := 0, rtmFlags := h.rtmFlags &&& ~~~16 }
    (replaceTableId lib e newMark (h.asSlice e ++ attrs)).map some

/-- The requests sent, and how the loop over the dump ends. -/
def cloneRoutes (ack : List UInt8 → Except String Unit) :
    List (Rtmsg × List UInt8) → List (List UInt8) × Except Failure Unit
  | [] => ([], .ok ())
  | (h, attrs) :: dump =>
    match cloneRoute lib e newMark h attrs with
    | .error f => ([], .error f)
    | .ok none => cloneRoutes ack dump
    | .ok (some request) =>
      match ack request with
      | .error text => ([request], .error (.err text))
      | .ok () =>
        let (sent, result) := cloneRoutes ack dump
        (request :: sent, result)

/-- What is made of a message: only the header's table and one flag, and the table
attribute, are not the original's. -/
def clonedMessage (h : Rtmsg) (attrs : List Tlv) : Option (List UInt8) :=
  if firstTable e attrs = some rtTableMain ∧ 1 < h.rtmDstLen then
    some (Rtmsg.asSlice e { h with rtmTable := 0, rtmFlags := h.rtmFlags &&& ~~~16 } ++
      Tlv.encodeAll e (Tlv.setFirst rtaTable (wordBytes e newMark.toNat) attrs))
  else none

end

section

variable {lib : RouteAttrs} {e : Endian} {newMark : UInt32} {h : Rtmsg} {attrs : List Tlv}

theorem readU32_length {payload : List UInt8} {n : UInt32} (h : readU32 e payload = some n) :
    payload.length = 4 := by
  unfold readU32 at h
  split at h
  next => rfl
  next => cases h

theorem replace_middle {α : Type} (front old back new : List α) :
    (front ++ (old ++ back)).take front.length ++ new ++
        (front ++ (old ++ back)).drop (front.length + old.length) = front ++ (new ++ back) := by
  rw [List.take_left, ← List.drop_drop, List.drop_left, List.drop_left, List.append_assoc]

theorem replaceTableId_eq (reads : lib.Reads e) (wf : Tlv.WellFormed attrs) {header : List UInt8}
    (hheader : header.length = Rtmsg.len) {a : Tlv}
    (hfind : attrs.find? (·.type == rtaTable) = some a) (hlength : a.payload.length = 4) :
    replaceTableId lib e newMark (header ++ Tlv.encodeAll e attrs) =
      .ok (header ++ Tlv.encodeAll e (Tlv.setFirst rtaTable (wordBytes e newMark.toNat) attrs)) := by
  obtain ⟨left, right, hencode, hchunk, hset⟩ := @Tlv.encodeAll_split e a attrs rtaTable hfind 0
  rw [hset _ ((wordBytes_length e _).trans hlength.symm)]
  unfold replaceTableId
  rw [List.drop_left' hheader, reads.chunks attrs wf, hchunk, hencode]
  have hbuf : header ++ (left ++ a.payload ++ right) =
      (header ++ left) ++ (a.payload ++ right) := by simp only [List.append_assoc]
  have hpos : Rtmsg.len + (0 + left.length) = (header ++ left).length := by
    rw [List.length_append, hheader, Nat.zero_add]
  dsimp only
  rw [hbuf, hpos, if_pos (by simp only [List.length_append]; omega), ← hlength, replace_middle]
  simp only [List.append_assoc]

/-- The request for a message with well-formed attributes is the message with the
mark in the table's place; no write leaves the buffer. -/
theorem cloneRoute_eq (reads : lib.Reads e) (wf : Tlv.WellFormed attrs) :
    cloneRoute lib e newMark h (Tlv.encodeAll e attrs) = .ok (clonedMessage e newMark h attrs) := by
  unfold cloneRoute clonedMessage
  rw [reads.table attrs wf]
  by_cases hmain : firstTable e attrs = some rtTableMain
  · rw [if_neg (by simp [hmain])]
    by_cases hlen : h.rtmDstLen ≤ 1
    · have hnot : ¬(firstTable e attrs = some rtTableMain ∧ 1 < h.rtmDstLen) :=
        fun hboth => absurd hboth.2 (UInt8.not_lt.mpr hlen)
      rw [if_pos hlen, if_neg hnot]
    · obtain ⟨a, hfind, hread⟩ := Option.bind_eq_some_iff.mp hmain
      rw [if_neg hlen, if_pos ⟨hmain, UInt8.not_le.mp hlen⟩]
      dsimp only
      rw [replaceTableId_eq reads wf (Rtmsg.asSlice_length e _) hfind (readU32_length hread)]
      rfl
  · have hother : (firstTable e attrs).getD 0 ≠ rtTableMain := by
      cases htable : firstTable e attrs with
      | none => decide
      | some table =>
        rw [htable] at hmain
        exact fun heq => hmain (congrArg some heq)
    rw [if_pos hother, if_neg fun hboth => hmain hboth.1]

/-- The loop sends the clones of the dump in order, up to a request that is refused;
it does not panic. -/
theorem cloneRoutes_sent (reads : lib.Reads e) (ack : List UInt8 → Except String Unit)
    (dump : List (Rtmsg × List Tlv)) (wf : ∀ m ∈ dump, Tlv.WellFormed m.2) :
    (cloneRoutes lib e newMark ack (dump.map fun m => (m.1, Tlv.encodeAll e m.2))).1 <+:
        dump.filterMap (fun m => clonedMessage e newMark m.1 m.2) ∧
      (cloneRoutes lib e newMark ack (dump.map fun m => (m.1, Tlv.encodeAll e m.2))).2 ≠
        .error .panic := by
  induction dump with
  | nil => exact ⟨List.prefix_rfl, nofun⟩
  | cons m dump ih =>
    obtain ⟨hsent, hresult⟩ := ih fun m' hm' => wf m' (List.mem_cons_of_mem _ hm')
    rw [List.map_cons, cloneRoutes, cloneRoute_eq reads (wf m List.mem_cons_self),
      List.filterMap_cons]
    cases hclone : clonedMessage e newMark m.1 m.2 with
    | none => exact ⟨hsent, hresult⟩
    | some request =>
      cases hack : ack request with
      | error text =>
        simp only [hack]
        exact ⟨⟨_, rfl⟩, nofun⟩
      | ok _ =>
        simp only [hack]
        exact ⟨(List.prefix_cons_inj request).mpr hsent, hresult⟩

end

/-- A library that reads the attributes from the front, one by one. -/
def scanRouteAttrs (e : Endian) : RouteAttrs where
  iterableChunks buf := Tlv.parse e buf.length 0 buf
  getTable buf := ((Tlv.parse e buf.length 0 buf).find? (·.type == rtaTable)).bind fun chunk =>
    readU32 e chunk.bytes

theorem scanRouteAttrs_reads (e : Endian) : (scanRouteAttrs e).Reads e := by
  have hscan : ∀ attrs, Tlv.WellFormed attrs →
      Tlv.parse e (Tlv.encodeAll e attrs).length 0 (Tlv.encodeAll e attrs) = Tlv.chunksAt 0 attrs :=
    fun attrs wf => Tlv.parse_encodeAll wf 0 (Tlv.length_le_encodeAll e attrs)
  refine ⟨hscan, fun attrs wf => ?_⟩
  have hfind := @Tlv.find?_chunksAt attrs rtaTable 0
  simp only [scanRouteAttrs, hscan attrs wf, firstTable]
  have hbind : ∀ found : Option Tlv.Chunk, (found.bind fun chunk => readU32 e chunk.bytes) =
      (found.map (·.bytes)).bind (readU32 e) := fun found => by cases found <;> rfl
  rw [hbind, hfind]
  cases attrs.find? (·.type == rtaTable) <;> rfl

def lanHeader : Rtmsg where
  rtmFamily := 2
  rtmDstLen := 24
  rtmSrcLen := 0
  rtmTos := 0
  rtmTable := 254
  rtmProtocol := 2
  rtmScope := 253
  rtmType := 1
  rtmFlags := 16

/-- A destination, nested next hops with a table type inside, and the table. -/
def lanAttrs : List Tlv :=
  [⟨1, false, [192, 168, 1, 0], []⟩, ⟨9, true, [5, 0, 15, 0, 254], [0, 0, 0]⟩,
    ⟨15, false, [254, 0, 0, 0], []⟩]

theorem lanAttrs_wellFormed : Tlv.WellFormed lanAttrs := by
  simp [Tlv.WellFormed, lanAttrs, Tlv.Sized, Tlv.Padded, Tlv.size]

theorem cloneRoute_eq_lan :
    cloneRoute (scanRouteAttrs .little) .little 70001 lanHeader (Tlv.encodeAll .little lanAttrs) =
      .ok (clonedMessage .little 70001 lanHeader lanAttrs) :=
  cloneRoute_eq (scanRouteAttrs_reads .little) lanAttrs_wellFormed

end Rebpf
