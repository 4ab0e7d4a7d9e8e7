import BumbelBee.Proof.Rendering

/-!
# How long the texts of the nodes get

A renderer appends pieces: words, and numbers with so many digits at most. So its text is
bounded by a sum, and all texts but one are bounded by what the scratch buffer has room for.
The exception is the list of received packets: `/net/rx/queue` is as long as the numbers in it.

The sum is `mostOf`: a number counts with the most digits its type has, and a name with the length
of the longest there is. No better is needed, but not much worse would do: sixteen lines of
`/proc/aspace` and eight of `/proc/tasks` come near the end of the buffer.
-/

namespace BumbelBee
namespace Proof

open Lib Kernel

/-! ## Pieces -/

/-- A part of a text, with a length it does not exceed. -/
structure Piece where
  text : List UInt8
  most : Nat
  bound : text.length ≤ most

namespace Piece

def chars (s : List UInt8) : Piece := ⟨s, s.length, Nat.le_refl _⟩

def str (s : String) : Piece :=
  ⟨cstr s, s.length, by rw [cstr, List.length_map, String.length_toList]⟩

def char (c : UInt8) : Piece := chars [c]

def u32 (x : UInt32) : Piece := ⟨decimal x.toNat, 10, length_decimal_u32 x⟩

def u64 (x : UInt64) : Piece := ⟨decimal x.toNat, 20, length_decimal_u64 x⟩

/-- A number that counts with the digits it has. -/
def number (n : Nat) : Piece := chars (decimal n)

@[simp] theorem chars_text (s : List UInt8) : (chars s).text = s := rfl
@[simp] theorem str_text (s : String) : (str s).text = cstr s := rfl
@[simp] theorem char_text (c : UInt8) : (char c).text = [c] := rfl
@[simp] theorem u32_text (x : UInt32) : (u32 x).text = decimal x.toNat := rfl
@[simp] theorem u64_text (x : UInt64) : (u64 x).text = decimal x.toNat := rfl
@[simp] theorem number_text (n : Nat) : (number n).text = decimal n := rfl

@[simp] theorem chars_most (s : List UInt8) : (chars s).most = s.length := rfl
@[simp] theorem str_most (s : String) : (str s).most = s.length := rfl
@[simp] theorem char_most (c : UInt8) : (char c).most = 1 := rfl
@[simp] theorem u32_most (x : UInt32) : (u32 x).most = 10 := rfl
@[simp] theorem u64_most (x : UInt64) : (u64 x).most = 20 := rfl
@[simp] theorem number_most (n : Nat) : (number n).most = (decimal n).length := rfl

end Piece

def textOf (ps : List Piece) : List UInt8 := ps.flatMap Piece.text

/-- What the pieces come to at most. -/
def mostOf (ps : List Piece) : Nat := (ps.map Piece.most).sum

@[simp] theorem mostOf_nil : mostOf [] = 0 := rfl
@[simp] theorem mostOf_cons (p : Piece) (ps : List Piece) :
    mostOf (p :: ps) = p.most + mostOf ps := by simp [mostOf]

theorem length_textOf_le (ps : List Piece) : (textOf ps).length ≤ mostOf ps := by
  induction ps with
  | nil => exact Nat.le_refl 0
  | cons p ps ih =>
    have hbound := p.bound
    rw [textOf, List.flatMap_cons, List.length_append, mostOf_cons]
    rw [textOf] at ih
    omega

theorem appendStr_textOf (cap : UInt32) (r : Rendered) (ps : List Piece) :
    appendStr cap r (textOf ps) = ps.foldl (fun r p => appendStr cap r p.text) r :=
  (foldl_appendStr cap Piece.text ps r).symm

/-! ## Texts with room to spare -/

/-- The renderer's text fits in the scratch buffer, with its terminator. -/
def FitsScratch (r : Rendered) : Prop :=
  ∃ text, r = rendered (UInt32.ofNat vfsScratchMax) text ∧ text.length ≤ vfsScratchMax - 1

theorem toNat_scratchMax : (UInt32.ofNat vfsScratchMax).toNat = vfsScratchMax := by decide

theorem FitsScratch.whole {r : Kernel.Rendered} (h : FitsScratch r) : Rendered.Whole r := by
  obtain ⟨text, rfl, hlen⟩ := h
  have hmax : vfsScratchMax = 1024 := rfl
  refine (rendered_whole_iff (by rw [toNat_scratchMax]; omega) (by omega)).mpr ?_
  rw [toNat_scratchMax]
  exact hlen

theorem stored_rendered_le {text : List UInt8} (hlen : text.length < 2 ^ 32 - 1) :
    (rendered (UInt32.ofNat vfsScratchMax) text).stored.length ≤ vfsScratchMax - 1 := by
  have hmax : vfsScratchMax = 1024 := rfl
  rw [rendered_eq (by rw [toNat_scratchMax]; omega) text hlen, toNat_scratchMax]
  exact List.length_take_le _ _

theorem fits_pieces {ps : List Piece} (h : mostOf ps ≤ vfsScratchMax - 1) :
    FitsScratch (rendered (UInt32.ofNat vfsScratchMax) (textOf ps)) :=
  ⟨textOf ps, rfl, (length_textOf_le ps).trans h⟩

theorem length_flatMap_le {α : Type} (line : α → List UInt8) (most : Nat) : ∀ (xs : List α),
    (∀ x ∈ xs, (line x).length ≤ most) → (xs.flatMap line).length ≤ xs.length * most
  | [], _ => by simp
  | x :: xs, h => by
    have hx := h x List.mem_cons_self
    have hxs := length_flatMap_le line most xs fun y hy => h y (List.mem_cons_of_mem x hy)
    rw [List.flatMap_cons, List.length_append, List.length_cons, Nat.add_mul]
    omega

/-- A header, and a line for each entry of a table. -/
def tableText {α : Type} (header : List UInt8) (line : α → List Piece) (xs : List α) : List UInt8 :=
  header ++ xs.flatMap fun x => textOf (line x)

theorem rendered_tableText {α : Type} (cap : UInt32) (header : List UInt8) (line : α → List Piece)
    (xs : List α) : rendered cap (tableText header line xs) =
      xs.foldl (fun r x => (line x).foldl (fun r p => appendStr cap r p.text) r)
        (appendStr cap ⟨[], 0⟩ header) := by
  simp only [← appendStr_textOf]
  rw [foldl_appendStr cap fun x => textOf (line x), appendStr_append]
  rfl

theorem length_tableText_le {α : Type} (header : List UInt8) (line : α → List Piece) (xs : List α)
    (most : Nat) (hline : ∀ x ∈ xs, mostOf (line x) ≤ most) :
    (tableText header line xs).length ≤ header.length + xs.length * most := by
  have hlines := length_flatMap_le (fun x => textOf (line x)) most xs fun x hx =>
    (length_textOf_le (line x)).trans (hline x hx)
  rw [tableText, List.length_append]
  omega

theorem fits_table {α : Type} {header : List UInt8} {line : α → List Piece} {xs : List α}
    (most : Nat) (hline : ∀ x ∈ xs, mostOf (line x) ≤ most)
    (h : header.length + xs.length * most ≤ vfsScratchMax - 1) :
    FitsScratch (rendered (UInt32.ofNat vfsScratchMax) (tableText header line xs)) :=
  ⟨_, rfl, (length_tableText_le header _ _ most hline).trans h⟩

/-! ## `/net` -/

def netStatsPieces (n : Netfs) : List Piece :=
  [.str "tx_packets=", .u64 n.stats.txPackets, .str " tx_bytes=", .u64 n.stats.txBytes,
    .str " rx_packets=", .u64 n.stats.rxPackets, .str " rx_bytes=", .u64 n.stats.rxBytes,
    .str " dropped=", .u64 n.stats.droppedPackets, .str " queue_depth=", .u32 n.rxCount,
    .str " tx_pending=", .u32 n.txCount, .str " loopback=", .u32 n.stats.loopbackEnabled,
    .str " last_packet=", .u64 n.stats.lastPacketId, .char 0x0a]

theorem renderNetStats_eq (cap : UInt32) (n : Netfs) :
    renderNetStats cap n = rendered cap (textOf (netStatsPieces n)) := by
  rw [rendered, appendStr_textOf]
  simp [renderNetStats, netStatsPieces, appendU64_eq, appendChar_eq]

theorem netStatsPieces_most (n : Netfs) : mostOf (netStatsPieces n) = 251 := by
  simp only [netStatsPieces, mostOf_cons, mostOf_nil, Piece.str_most, Piece.u64_most,
    Piece.u32_most, Piece.char_most]
  decide

def netLoopbackPieces (n : Netfs) : List Piece := [.u32 n.stats.loopbackEnabled, .char 0x0a]

theorem renderNetLoopback_eq (cap : UInt32) (n : Netfs) :
    renderNetLoopback cap n = rendered cap (textOf (netLoopbackPieces n)) := by
  rw [rendered, appendStr_textOf]
  simp [renderNetLoopback, netLoopbackPieces, appendU64_eq, appendChar_eq]

def netExplainPieces : List Piece :=
  [.str "netfs: packet i/o is modeled as files under /net.\n",
    .str "write /net/tx <payload> for outbound packets.\n",
    .str "write /net/rx/inject <payload> for inbound packet injection.\n"]

theorem netExplainPieces_most : mostOf netExplainPieces = 157 := by
  simp only [netExplainPieces, mostOf_cons, mostOf_nil, Piece.str_most]
  decide

theorem renderNetExplain_eq (cap : UInt32) :
    renderNetExplain cap = rendered cap (textOf netExplainPieces) := by
  rw [rendered, appendStr_textOf]
  simp [renderNetExplain, netExplainPieces]

def netRxLastPieces (n : Netfs) : List Piece :=
  if n.rxCount = 0 then [.str "rx queue empty\n"]
  else
    let pkt := n.rxPacket (n.rxCount - 1)
    [.str "packet id=", .u64 pkt.packetId, .str " len=", .u32 pkt.len, .str " data=\"",
      .chars (pkt.payload.map shownChar), .str "\"\n"]

theorem renderNetRxLast_eq (cap : UInt32) (n : Netfs) :
    renderNetRxLast cap n = rendered cap (textOf (netRxLastPieces n)) := by
  have hpayload : ∀ (payload : List UInt8) (r : Kernel.Rendered),
      payload.foldl (fun r ch => appendChar cap r (shownChar ch)) r =
        appendStr cap r (payload.map shownChar) := fun payload r => List.foldl_map.symm
  rw [rendered, appendStr_textOf]
  unfold renderNetRxLast netRxLastPieces
  split
  · simp
  · simp [hpayload, appendU64_eq]

theorem netRxLastPieces_most (n : Netfs) : mostOf (netRxLastPieces n) ≤ 310 := by
  unfold netRxLastPieces
  split
  · simp only [mostOf_cons, mostOf_nil, Piece.str_most]
    decide
  · have hpayload : (n.rxPacket (n.rxCount - 1)).payload.length ≤ netfsMaxPayload := by
      rw [NetPacket.payload, List.length_take]
      exact (Nat.min_le_left _ _).trans (n.rxPacket (n.rxCount - 1)).fits
    have hmax : netfsMaxPayload = 256 := rfl
    have hwords : "packet id=".length = 10 ∧ " len=".length = 5 ∧ " data=\"".length = 7 ∧
        "\"\n".length = 2 := by decide
    obtain ⟨h1, h2, h3, h4⟩ := hwords
    simp only [mostOf_cons, mostOf_nil, Piece.str_most, Piece.u64_most, Piece.u32_most,
      Piece.chars_most, List.length_map, h1, h2, h3, h4]
    omega

/-- The line of a packet in the list of those received. -/
def netRxLine (n : Netfs) (i : Nat) : List Piece :=
  [.str "idx=", .number i, .str " id=", .number (n.rxPacket (UInt32.ofNat i)).packetId.toNat,
    .str " len=", .number (n.rxPacket (UInt32.ofNat i)).len.toNat, .char 0x0a]

def netRxQueueText (n : Netfs) : List UInt8 :=
  tableText (textOf [.str "rx queue depth=", .number n.rxCount.toNat, .char 0x0a]) (netRxLine n)
    (List.range n.rxCount.toNat)

theorem renderNetRxQueue_eq (cap : UInt32) (n : Netfs) :
    renderNetRxQueue cap n = rendered cap (netRxQueueText n) := by
  rw [netRxQueueText, rendered_tableText, appendStr_textOf]
  simp only [renderNetRxQueue, appendU64_eq, appendChar_eq, UInt32.toNat_toUInt64,
    List.foldl_cons, List.foldl_nil, Piece.str_text, Piece.number_text, Piece.char_text]
  refine List.foldl_ext _ _ _ fun r i hi => ?_
  have hsmall : (UInt64.ofNat i).toNat = i := UInt64.toNat_ofNat_of_lt' (by
    have hlt := List.mem_range.mp hi
    have hcount := n.rxCount.toNat_lt
    simp only [UInt64.size]
    omega)
  simp [hsmall, netRxLine]

/-- The digits of all the numbers in the list. -/
def listedDigits (n : Netfs) : Nat :=
  width n.rxCount.toNat + ((List.range n.rxCount.toNat).map fun i =>
    width i + width (n.rxPacket (UInt32.ofNat i)).packetId.toNat +
      width (n.rxPacket (UInt32.ofNat i)).len.toNat).sum

theorem length_netRxQueueText (n : Netfs) :
    (netRxQueueText n).length = listedDigits n + 14 * n.rxCount.toNat + 16 := by
  have hwords : (cstr "rx queue depth=").length = 15 ∧ (cstr "idx=").length = 4 ∧
      (cstr " id=").length = 4 ∧ (cstr " len=").length = 5 := by decide
  obtain ⟨h1, h2, h3, h4⟩ := hwords
  have hline : ∀ i, (textOf (netRxLine n i)).length = 14 + (width i +
      width (n.rxPacket (UInt32.ofNat i)).packetId.toNat +
      width (n.rxPacket (UInt32.ofNat i)).len.toNat) := fun i => by
    simp only [textOf, netRxLine, List.flatMap_cons, List.flatMap_nil, List.length_append,
      Piece.str_text, Piece.number_text, Piece.char_text, length_decimal, h2, h3, h4,
      List.length_singleton, List.length_nil]
    omega
  have hlines : ((List.range n.rxCount.toNat).map fun i => (textOf (netRxLine n i)).length).sum =
      14 * n.rxCount.toNat + ((List.range n.rxCount.toNat).map fun i =>
        width i + width (n.rxPacket (UInt32.ofNat i)).packetId.toNat +
          width (n.rxPacket (UInt32.ofNat i)).len.toNat).sum := by
    simp only [hline, List.sum_map_add, List.map_const', List.sum_replicate_nat, List.length_range]
    omega
  rw [netRxQueueText, tableText, List.length_append, List.length_flatMap, hlines, listedDigits]
  simp only [textOf, List.flatMap_cons, List.flatMap_nil, List.length_append, Piece.str_text,
    Piece.number_text, Piece.char_text, length_decimal, h1, List.length_singleton, List.length_nil]
  omega

/-- Whatever the numbers are, the text is too short for its length to wrap. -/
theorem length_netRxQueueText_le {n : Netfs} (hcount : n.rxCount.toNat ≤ netfsQueueCap) :
    (netRxQueueText n).length ≤ 2074 := by
  have hqueue : netfsQueueCap = 32 := rfl
  have hwords : "idx=".length = 4 ∧ " id=".length = 4 ∧ " len=".length = 5 := by decide
  obtain ⟨h1, h2, h3⟩ := hwords
  have hlen := length_tableText_le (textOf [.str "rx queue depth=", .number n.rxCount.toNat,
    .char 0x0a]) (netRxLine n) (List.range n.rxCount.toNat) 64 fun i hi => by
      have hi : (decimal i).length ≤ 20 := length_decimal_le (by decide) (by
        have hlt := List.mem_range.mp hi
        omega)
      have hid := length_decimal_u64 (n.rxPacket (UInt32.ofNat i)).packetId
      have hlength := length_decimal_u32 (n.rxPacket (UInt32.ofNat i)).len
      simp only [netRxLine, mostOf_cons, mostOf_nil, Piece.str_most, Piece.number_most,
        Piece.char_most, h1, h2, h3]
      omega
  have hhead := length_textOf_le [.str "rx queue depth=", .number n.rxCount.toNat, .char 0x0a]
  have hdepth : "rx queue depth=".length = 15 := by decide
  have hcountDigits := length_decimal_u32 n.rxCount
  simp only [mostOf_cons, mostOf_nil, Piece.str_most, Piece.number_most, Piece.char_most,
    hdepth] at hhead
  rw [List.length_range] at hlen
  rw [netRxQueueText]
  omega

/-- **The one text that may not fit.** -/
theorem renderNetRxQueue_whole_iff {n : Netfs} (hcount : n.rxCount.toNat ≤ netfsQueueCap) :
    Rendered.Whole (renderNetRxQueue (UInt32.ofNat vfsScratchMax) n) ↔
      listedDigits n + 14 * n.rxCount.toNat ≤ 1007 := by
  have hmax : vfsScratchMax = 1024 := rfl
  have hlen := length_netRxQueueText_le hcount
  rw [renderNetRxQueue_eq, rendered_whole_iff (by rw [toNat_scratchMax]; omega) (by omega),
    toNat_scratchMax, length_netRxQueueText]
  omega

/-- The other files under `/net` are short. -/
theorem netfsRenderPath_fits {path : List UInt8} {n : Netfs} {r : Kernel.Rendered}
    (h : netfsRenderPath path (UInt32.ofNat vfsScratchMax) n = some r)
    (hpath : path ≠ cstr "/net/rx/queue") : FitsScratch r := by
  have hmax : vfsScratchMax = 1024 := rfl
  unfold netfsRenderPath at h
  split at h
  · obtain rfl := Option.some.inj h
    rw [renderNetStats_eq]
    exact fits_pieces (by rw [netStatsPieces_most]; omega)
  split at h
  · obtain rfl := Option.some.inj h
    rw [renderNetLoopback_eq]
    refine fits_pieces ?_
    simp only [netLoopbackPieces, mostOf_cons, mostOf_nil, Piece.u32_most, Piece.char_most]
    omega
  split at h
  · obtain rfl := Option.some.inj h
    rw [renderNetExplain_eq]
    exact fits_pieces (by rw [netExplainPieces_most]; omega)
  split at h
  · obtain rfl := Option.some.inj h
    rw [renderNetRxLast_eq]
    exact fits_pieces ((netRxLastPieces_most n).trans (by omega))
  split at h
  · obtain rfl := Option.some.inj h
    exact ⟨cstr "write-only endpoint for outbound packets\n", rfl, by decide⟩
  · cases h

/-! ## `/proc` -/

def taskLine (t : SchedTaskInfo) : List Piece :=
  [.u32 t.pid, .char 0x20, .u32 t.parentPid, .char 0x20, .u32 t.aspaceId, .char 0x20,
    .chars (schedStateName t.state), .char 0x20, .u64 t.cpuTicks, .char 0x20, .u64 t.yields,
    .char 0x20, .chars t.execPath, .char 0x20, .chars t.name, .char 0x0a]

theorem renderProcTasks_eq (cap : UInt32) (k : TaskTable) :
    renderProcTasks cap k = rendered cap (tableText
      (cstr "pid ppid aspace state cpu_ticks yields exec name\n") taskLine (schedSnapshot k 8)) := by
  rw [rendered_tableText]
  simp only [renderProcTasks, appendU64_eq, appendChar_eq, UInt32.toNat_toUInt64]
  rfl

theorem taskLine_most {t : SchedTaskInfo} (hname : t.name.length ≤ 12)
    (hexec : t.execPath.length ≤ 13) : mostOf (taskLine t) ≤ 110 := by
  have hstate : (schedStateName t.state).length ≤ 7 := by
    cases t.state <;> decide
  simp only [taskLine, mostOf_cons, mostOf_nil, Piece.u32_most, Piece.u64_most, Piece.char_most,
    Piece.chars_most]
  omega

theorem renderProcTasks_fits {k : TaskTable}
    (h : ∀ i, (k.rest i).name.length ≤ 12 ∧ (k.rest i).execPath.length ≤ 13) :
    FitsScratch (renderProcTasks (UInt32.ofNat vfsScratchMax) k) := by
  rw [renderProcTasks_eq]
  have hhead : (cstr "pid ppid aspace state cpu_ticks yields exec name\n").length = 49 := by decide
  have hcount : (schedSnapshot k 8).length ≤ 8 := List.length_take_le 8 _
  have hmax : vfsScratchMax = 1024 := rfl
  refine fits_table 110 (fun t ht => ?_) (by omega)
  obtain ⟨i, -, hi⟩ := List.mem_filterMap.mp (List.mem_of_mem_take ht)
  obtain ⟨task, -, rfl⟩ := Option.map_eq_some_iff.mp hi
  exact taskLine_most (h i).1 (h i).2

def meminfoPieces (k : Nodes) : List Piece :=
  [.str "MemTotal: ", .u64 k.totalBytes, .str "\nMemUsed: ",
    .u64 k.tasks.procs.aspaces.memory.usedBytes, .str "\nMemFree: ",
    .u64 k.tasks.procs.aspaces.memory.freeBytes, .str "\nPageFaults: ", .u64 k.pageFaults,
    .char 0x0a]

theorem renderProcMeminfo_eq (cap : UInt32) (k : Nodes) :
    renderProcMeminfo cap k = rendered cap (textOf (meminfoPieces k)) := by
  rw [rendered, appendStr_textOf]
  simp [renderProcMeminfo, meminfoPieces, appendU64_eq, appendChar_eq]

theorem meminfoPieces_most (k : Nodes) : mostOf (meminfoPieces k) = 124 := by
  simp only [meminfoPieces, mostOf_cons, mostOf_nil, Piece.str_most, Piece.u64_most,
    Piece.char_most]
  decide

def aspaceLine (a : AspaceInfo) : List Piece :=
  [.u32 a.id, .char 0x20, .number a.kind.code.toNat, .char 0x20, .number a.refcount.toNat,
    .char 0x20, .number (if a.isolated then 1 else 0), .char 0x20, .u64 a.cr3, .char 0x20,
    .number a.userStackTop.toNat, .char 0x20, .chars a.label, .char 0x0a]

theorem renderProcAspace_eq (cap : UInt32) (s : Aspaces) :
    renderProcAspace cap s = rendered cap (tableText
      (cstr "id kind refs isolated cr3 ustack label\n") aspaceLine (aspaceSnapshot s 16)) := by
  have hflag : ∀ b : Bool, (if b then 1 else 0 : UInt64).toNat = if b then 1 else 0 := by decide
  rw [rendered_tableText]
  simp only [renderProcAspace, appendU64_eq, appendChar_eq, UInt32.toNat_toUInt64, hflag]
  rfl

theorem renderProcAspace_fits {s : Aspaces}
    (h : ∀ i a, s.table i = some a → mostOf (aspaceLine a.info) ≤ 59) :
    FitsScratch (renderProcAspace (UInt32.ofNat vfsScratchMax) s) := by
  have hhead : (cstr "id kind refs isolated cr3 ustack label\n").length = 39 := by decide
  have hcount : (aspaceSnapshot s 16).length ≤ 16 := List.length_take_le 16 _
  have hmax : vfsScratchMax = 1024 := rfl
  rw [renderProcAspace_eq]
  refine fits_table 59 (fun info hinfo => ?_) (by omega)
  obtain ⟨i, -, hi⟩ := List.mem_filterMap.mp (List.mem_of_mem_take hinfo)
  obtain ⟨a, ha, rfl⟩ := Option.map_eq_some_iff.mp hi
  exact h i a ha

/-! ## `/trace` and `/bin` -/

def traceMetaPieces (info : TraceSessionInfo) : List Piece :=
  [.str "session=", .u32 info.sessionId, .str "\nbytes=", .u32 info.sizeBytes, .str "\nprofile=",
    .u32 info.profileId, .str "\nevents=", .u32 info.eventCount, .str "\nduration_ticks=",
    .u64 info.durationTicks, .char 0x0a]

theorem traceMetaText_eq (cap : UInt32) (info : TraceSessionInfo) :
    traceMetaText cap info = rendered cap (textOf (traceMetaPieces info)) := by
  rw [rendered, appendStr_textOf]
  simp [traceMetaText, traceMetaPieces, appendU64_eq, appendChar_eq]

theorem traceMetaText_fits (info : TraceSessionInfo) :
    FitsScratch (traceMetaText (UInt32.ofNat vfsScratchMax) info) := by
  rw [traceMetaText_eq]
  refine fits_pieces ?_
  simp only [traceMetaPieces, mostOf_cons, mostOf_nil, Piece.str_most, Piece.u32_most,
    Piece.u64_most, Piece.char_most]
  decide

def execLine (path : List UInt8) : List Piece := [.str "  ", .chars path, .char 0x0a]

def programLine (prog : BuiltinProgram) : List Piece :=
  [.str "  ", .chars prog.path, .str " : ", .chars prog.entry.summary, .char 0x0a]

theorem renderBinIndex_fits (fs : Fs) :
    FitsScratch (renderBinIndex (UInt32.ofNat vfsScratchMax) fs) := by
  have hhead : (cstr "executables:\n").length = 13 := by decide
  have hmax : vfsScratchMax = 1024 := rfl
  have hwords : "  ".length = 2 ∧ " : ".length = 3 := by decide
  obtain ⟨h1, h2⟩ := hwords
  unfold renderBinIndex
  simp only
  split
  · have htext := rendered_tableText (UInt32.ofNat vfsScratchMax) (cstr "executables:\n") execLine
      (fsSnapshotExecs fs 8)
    simp only [execLine, List.foldl_cons, List.foldl_nil, Piece.str_text, Piece.chars_text,
      Piece.char_text, ← appendChar_eq] at htext
    have hcount : (fsSnapshotExecs fs 8).length ≤ 8 := by
      rw [fsSnapshotExecs, List.length_map]
      exact List.length_take_le 8 _
    rw [← htext]
    refine fits_table 34 (fun path hpath => ?_) (by omega)
    obtain ⟨i, -, rfl⟩ := List.mem_map.mp hpath
    have hpath : ((fs.inodes i).nameString.take 31).length ≤ 31 := List.length_take_le 31 _
    simp only [execLine, mostOf_cons, mostOf_nil, Piece.str_most, Piece.chars_most,
      Piece.char_most, h1]
    omega
  · have htext := rendered_tableText (UInt32.ofNat vfsScratchMax) (cstr "executables:\n")
      programLine programs
    simp only [programLine, List.foldl_cons, List.foldl_nil, Piece.str_text, Piece.chars_text,
      Piece.char_text, ← appendChar_eq] at htext
    have hshort : ∀ prog ∈ programs, prog.path.length + prog.entry.summary.length ≤ 60 := by decide
    have hcount : programs.length = 4 := rfl
    rw [← htext]
    refine fits_table 66 (fun prog hprog => ?_) (by omega)
    have hshort := hshort prog hprog
    simp only [programLine, mostOf_cons, mostOf_nil, Piece.str_most, Piece.chars_most,
      Piece.char_most, h1, h2]
    omega

def programPieces (prog : BuiltinProgram) (disk : Bool) (info : ElfInfo) : List Piece :=
  [.str "path=", .chars prog.path, .str "\nsummary=", .chars prog.entry.summary, .str "\nmode=",
    .chars prog.entry.mode, .str "\nsource=", .chars (if disk then cstr "disk" else cstr "kernel"),
    .str "\nelf.machine=", .u64 info.machine.toUInt64, .str "\nelf.entry=", .u64 info.entry,
    .str "\nelf.phnum=", .u64 info.phnum.toUInt64, .str "\nelf.vaddr_range=",
    .u64 info.firstVaddr, .char 0x2d, .u64 info.lastVaddr, .char 0x0a]

theorem renderProgram_fits {prog : BuiltinProgram} (hprog : prog ∈ programs) (disk : Bool)
    (info : ElfInfo) : FitsScratch (renderProgram (UInt32.ofNat vfsScratchMax) prog disk info) := by
  have htext : renderProgram (UInt32.ofNat vfsScratchMax) prog disk info =
      rendered (UInt32.ofNat vfsScratchMax) (textOf (programPieces prog disk info)) := by
    rw [rendered, appendStr_textOf]
    simp [renderProgram, programPieces, appendU64_eq, appendChar_eq]
  have hshort : ∀ prog ∈ programs, prog.path.length + prog.entry.summary.length +
      prog.entry.mode.length ≤ 80 := by decide
  have hshort := hshort prog hprog
  have hsource : (if disk then cstr "disk" else cstr "kernel").length ≤ 6 := by
    cases disk <;> decide
  have hwords : "path=".length = 5 ∧ "\nsummary=".length = 9 ∧ "\nmode=".length = 6 ∧
      "\nsource=".length = 8 ∧ "\nelf.machine=".length = 13 ∧ "\nelf.entry=".length = 11 ∧
      "\nelf.phnum=".length = 11 ∧ "\nelf.vaddr_range=".length = 17 := by decide
  obtain ⟨h1, h2, h3, h4, h5, h6, h7, h8⟩ := hwords
  have hmax : vfsScratchMax = 1024 := rfl
  rw [htext]
  refine fits_pieces ?_
  simp only [programPieces, mostOf_cons, mostOf_nil, Piece.str_most, Piece.u64_most,
    Piece.chars_most, Piece.char_most, h1, h2, h3, h4, h5, h6, h7, h8]
  omega

theorem builtinExecRenderPath_fits {path : List UInt8} {stack : Nat → UInt8} {around : ImageMem}
    {fs fs' : Fs} {r : Kernel.Rendered}
    (h : builtinExecRenderPath path (UInt32.ofNat vfsScratchMax) stack around fs =
      .ok (some r, fs')) : FitsScratch r := by
  unfold builtinExecRenderPath at h
  split at h
  · cases h
    exact renderBinIndex_fits fs
  · split at h
    · cases h
    · rename_i prog hfound
      have hprog : prog ∈ programs := List.mem_of_find?_eq_some hfound
      cases himage : renderPathImage path stack fs with
      | error e =>
        rw [himage] at h
        cases h
      | ok image =>
        rw [himage] at h
        simp only [bind, Except.bind, Except.ok.injEq, Prod.mk.injEq, Option.map_eq_some_iff] at h
        obtain ⟨⟨info, -, rfl⟩, -⟩ := h
        exact renderProgram_fits hprog _ info

end Proof
end BumbelBee
