import BumbelBee.Proof.TraceNodes

/-!
# Descriptors that are read in turn

Every read renders its node anew and goes on where the descriptor stands. As long as what the
nodes render stays the same and fits the buffer, each descriptor hands out its node's content
from the front, byte for byte, whatever the others do (`descriptor_reads_partition`).

A read does not continue where the last one stopped: it renders the whole text again into the
scratch buffer and takes a slice. The slices fit together only if the text is the same each time,
and that is a condition on the nodes, over which another task, an interrupt or the read itself may
write. `FileRun` puts the condition on each read alone and lets everything else happen in between.
-/

namespace BumbelBee
namespace Proof

open Lib Kernel

/-! ## What a node has to give

A text, a session's bytes and its metadata come from different code, and are all put into one
buffer, of which the descriptor then takes what is behind its position.
-/

/-- The characters of a text, in the buffer it was rendered into. -/
def shownText (scratch : Nat → UInt8) (r : Kernel.Rendered) : List UInt8 :=
  (textBuffer r scratch).contents r.pos.toNat

def sessionBytes (path : List UInt8) (scratch : Nat → UInt8) (fs : Fs) :
    Except Overrun (Option (List UInt8)) :=
  match parseTraceSessionId path with
  | none => .ok none
  | some id => do
    let (total, buf, _) ← fsReadTraceSession id (⟨scratch⟩ : VfsScratch) fs
    .ok (total.map fun total => buf.contents total.toNat)

def sessionMeta (path : List UInt8) (scratch : Nat → UInt8) (fs : Fs) : Option (List UInt8) :=
  ((parseTraceSessionId path).bind fun id => fsGetTraceSessionInfo id fs).map fun info =>
    shownText scratch (traceMetaText (UInt32.ofNat vfsScratchMax) info)

/-- What a read of the descriptor renders, up to the total that is reported; `none` when it
    renders nothing. -/
def nodeContent (d : VfsFd) (f : ReadFrame) (k : Nodes) : Except Overrun (Option (List UInt8)) :=
  match d.type with
  | .traceSession => sessionBytes d.path f.scratch k.fs
  | .traceMeta => .ok (sessionMeta d.path f.scratch k.fs)
  | _ => do
    let (r, _) ← renderNode d f.stack f.around k
    .ok (r.map (shownText f.scratch))

section
variable {d : VfsFd} {f : ReadFrame} {k : Nodes} {path : List UInt8} {fs : Fs} {pos : UInt32}
  {scratch : Nat → UInt8} {content : Option (List UInt8)} {data : List UInt8}

/-- Of a node that renders a text. -/
theorem readFromNode_text_step (hsession : d.type ≠ .traceSession) (hmeta : d.type ≠ .traceMeta)
    (h : nodeContent d f k = .ok content) (hdata : ∀ text, content = some text → text = data)
    (hpos : d.pos.toNat ≤ data.length) (bytes : UInt64) : ∃ out pos k',
      readFromNode d bytes f k = .ok (out, pos, k') ∧
        ReadStep data (content = none) d.pos bytes out pos := by
  have hcontent : nodeContent d f k =
      (renderNode d f.stack f.around k >>= fun r => .ok (r.1.map (shownText f.scratch))) := by
    unfold nodeContent
    split
    · exact absurd ‹_› hsession
    · exact absurd ‹_› hmeta
    · rfl
  have hread : readFromNode d bytes f k = (renderNode d f.stack f.around k >>= fun r =>
      .ok ((readRendered r.1 f.scratch d.pos bytes).1,
        (readRendered r.1 f.scratch d.pos bytes).2, r.2)) := by
    unfold readFromNode
    split
    · exact absurd ‹_› hsession
    · exact absurd ‹_› hmeta
    · rfl
  rw [hcontent] at h
  cases hrender : renderNode d f.stack f.around k with
  | error e =>
    rw [hrender] at h
    cases h
  | ok rendered =>
    obtain ⟨r, k'⟩ := rendered
    rw [hrender] at h hread
    obtain rfl := Except.ok.inj h
    refine ⟨_, _, k', hread, ?_⟩
    cases r with
    | none => exact Or.inl ⟨rfl, rfl, rfl⟩
    | some text =>
      obtain rfl := hdata _ rfl
      rw [shownText, length_contents] at hpos
      exact (readRendered_sliced text f.scratch hpos bytes).imp (fun hno => hno.1.elim) id

theorem readTraceFile_meta_step (hdata : ∀ text, sessionMeta path scratch fs = some text →
      text = data) (hpos : pos.toNat ≤ data.length) (bytes : UInt64) :
    ∃ out pos', readTraceFile path pos bytes true scratch fs = .ok (out, pos', fs) ∧
      ReadStep data (sessionMeta path scratch fs = none) pos bytes out pos' := by
  unfold readTraceFile sessionMeta at *
  cases hid : parseTraceSessionId path with
  | none => exact ⟨none, pos, rfl, Or.inl ⟨rfl, rfl, rfl⟩⟩
  | some id =>
    rw [hid, Option.bind_some] at hdata
    cases hinfo : fsGetTraceSessionInfo id fs with
    | none =>
      simp only [hinfo]
      exact ⟨none, pos, rfl, Or.inl ⟨by simp [hinfo], rfl, rfl⟩⟩
    | some info =>
      obtain rfl := hdata _ (by rw [hinfo]; rfl)
      simp only [shownText, length_contents] at hpos
      simp only [hinfo, if_true]
      split
      · rename_i hend
        exact ⟨_, _, rfl, ReadStep.atEnd (textBuffer _ scratch) _ bytes hend⟩
      · exact ⟨_, _, rfl, ReadStep.sliced (textBuffer _ scratch) _ bytes hpos⟩

/-- A session that can be read has a record, with its size. -/
theorem fsReadTraceSession_info {id total : UInt32} {cap : Nat} {buf buf' : Buffer cap} {fs' : Fs}
    (h : fsReadTraceSession id buf fs = .ok (some total, buf', fs')) :
    ∃ info, fsGetTraceSessionInfo id fs = some info ∧ info.sizeBytes = total := by
  unfold fsReadTraceSession fsReadInode at h
  unfold fsGetTraceSessionInfo
  cases honline : fs.online with
  | false =>
    rw [honline] at h
    cases h
  | true =>
    cases hfind : fsFindSession fs.inodes id with
    | none =>
      rw [honline, hfind] at h
      cases h
    | some i =>
      rw [honline, hfind] at h
      simp only [bind, Except.bind] at h
      split at h
      · cases h
      · rename_i r hread
        obtain ⟨ok, buf₁, ata⟩ := r
        cases ok with
        | false => cases h
        | true =>
          cases h
          exact ⟨_, rfl, rfl⟩

/-- Of a session that is short enough for the scratch buffer. -/
theorem readTraceFile_session_step (h : sessionBytes path scratch fs = .ok content)
    (hdata : ∀ text, content = some text → text = data) (hshort : data.length < vfsScratchMax)
    (hpos : pos.toNat ≤ data.length) (bytes : UInt64) : ∃ out pos' fs',
      readTraceFile path pos bytes false scratch fs = .ok (out, pos', fs') ∧
        ReadStep data (content = none) pos bytes out pos' := by
  unfold readTraceFile
  unfold sessionBytes at h
  cases hid : parseTraceSessionId path with
  | none =>
    rw [hid] at h
    exact ⟨none, pos, fs, rfl, Or.inl ⟨(Except.ok.inj h).symm, rfl, rfl⟩⟩
  | some id =>
    rw [hid] at h
    cases hread : fsReadTraceSession id (⟨scratch⟩ : VfsScratch) fs with
    | error e =>
      simp only [hread] at h
      cases h
    | ok r =>
      obtain ⟨total, buf, fs'⟩ := r
      simp only [hread] at h
      obtain rfl := Except.ok.inj h
      cases total with
      | none =>
        -- the read fails, if not before
        cases hinfo : fsGetTraceSessionInfo id fs with
        | none =>
          simp only [hinfo]
          exact ⟨none, pos, fs, rfl, Or.inl ⟨rfl, rfl, rfl⟩⟩
        | some info =>
          simp only [hinfo, Bool.false_eq_true, if_false, hread]
          split
          · exact ⟨none, pos, fs, rfl, Or.inl ⟨rfl, rfl, rfl⟩⟩
          · exact ⟨none, pos, fs', rfl, Or.inl ⟨rfl, rfl, rfl⟩⟩
      | some total =>
        obtain ⟨info, hinfo, hsize⟩ := fsReadTraceSession_info hread
        obtain rfl := hdata _ rfl
        rw [length_contents] at hshort hpos
        have hguard : ¬ info.sizeBytes > UInt32.ofNat vfsScratchMax := by
          rw [hsize, gt_iff_lt, UInt32.lt_iff_toNat_lt, toNat_scratchMax]
          omega
        simp only [hinfo, Bool.false_eq_true, if_false, if_neg hguard, hread, bind, Except.bind]
        split
        · rename_i hend
          exact ⟨_, _, fs', rfl, ReadStep.atEnd buf _ bytes hend⟩
        · exact ⟨_, _, fs', rfl, ReadStep.sliced buf _ bytes hpos⟩

/-- **A read of any node**: it fails if nothing is rendered, and else goes on where the
    descriptor stands. -/
theorem readFromNode_step (h : nodeContent d f k = .ok content)
    (hdata : ∀ text, content = some text → text = data) (hshort : data.length < vfsScratchMax)
    (hpos : d.pos.toNat ≤ data.length) (bytes : UInt64) : ∃ out pos k',
      readFromNode d bytes f k = .ok (out, pos, k') ∧
        ReadStep data (content = none) d.pos bytes out pos := by
  by_cases hsession : d.type = .traceSession
  · simp only [nodeContent, hsession] at h
    obtain ⟨out, pos, fs, hread, hstep⟩ := readTraceFile_session_step h hdata hshort hpos bytes
    refine ⟨out, pos, { k with fs }, ?_, hstep⟩
    simp only [readFromNode, hsession, hread, bind, Except.bind]
  by_cases hmeta : d.type = .traceMeta
  · simp only [nodeContent, hmeta] at h
    obtain rfl := Except.ok.inj h
    obtain ⟨out, pos, hread, hstep⟩ := readTraceFile_meta_step hdata hpos bytes
    refine ⟨out, pos, k, ?_, hstep⟩
    simp only [readFromNode, hmeta, hread, bind, Except.bind]
  · exact readFromNode_text_step hsession hmeta h hdata hpos bytes

end

/-! ## What happens to the descriptors

A descriptor's number is used again once it has been closed. What is noted of it begins anew at each
open, so the partition is of what was read since then.
-/

/-- A call and its answer; `other` is everything else the kernel does. -/
inductive FileEvent
  | open (path : List UInt8) (fd : Option (Fin vfsMaxFds))
  | close (fd : Int)
  | read (fd : Int) (bytes : UInt64) (out : Option (List UInt8))
  | other

/-- The call is made on the descriptor, or returns it. -/
def FileEvent.On : FileEvent → Fin vfsMaxFds → Prop
  | .open _ fd, i => fd = some i
  | .close fd, i => fd = (i.val : Int)
  | .read fd _ _, i => fd = (i.val : Int)
  | .other, _ => False

/-- The path of a descriptor, and what its reads have returned. -/
def FileEvent.note (i : Fin vfsMaxFds) (got : Option (List UInt8 × List UInt8)) :
    FileEvent → Option (List UInt8 × List UInt8)
  | .open path fd => if fd = some i then some (path, []) else got
  | .close fd => if fd = (i.val : Int) then none else got
  | .read fd _ out =>
    if fd = (i.val : Int) then got.map fun (path, bytes) => (path, bytes ++ out.getD []) else got
  | .other => got

/-- What the successful reads of a descriptor have returned since it was opened, put together;
    `none` if it was not opened, or is closed. -/
def readFrom (i : Fin vfsMaxFds) (events : List FileEvent) : Option (List UInt8 × List UInt8) :=
  events.foldl (FileEvent.note i) none

section
variable (content : List UInt8 → List UInt8)

/-- A read would render the content of its node, unless it renders nothing. -/
def Unchanged (fd : Int) (f : ReadFrame) (v : Vfs) : Prop :=
  ∀ i d, v.findFd fd = some (i, d) → d.flags ≠ vfsOWronly → ∃ rendered,
    nodeContent d f v.nodes = .ok rendered ∧
      ∀ text, rendered = some text → text = content d.path

inductive FileStep : Vfs → FileEvent → Vfs → Prop
  | open {v : Vfs} (path : List UInt8) (flags : UInt32) :
      FileStep v (.open path (vfsOpen path flags v).1) (vfsOpen path flags v).2
  | close {v : Vfs} (fd : Int) : FileStep v (.close fd) (vfsClose fd v).2
  | read {v v' : Vfs} {fd : Int} {bytes : UInt64} {f : ReadFrame} {out : Option (List UInt8)}
      (hsame : Unchanged content fd f v) (hrun : vfsRead fd bytes f v = .ok (out, v')) :
      FileStep v (.read fd bytes out) v'
  | other {v : Vfs} (k : Nodes) : FileStep v .other ⟨v.fdTable, k⟩

/-- Calls in any order, on any descriptors, and anything in between. -/
inductive FileRun (v₀ : Vfs) : List FileEvent → Vfs → Prop
  | start : FileRun v₀ [] v₀
  | step {events : List FileEvent} {v v' : Vfs} {e : FileEvent} (h : FileRun v₀ events v)
      (hstep : FileStep content v e v') : FileRun v₀ (events ++ [e]) v'

/-- What is noted of the descriptors is what their nodes hold up to their positions. -/
def HandedOut (events : List FileEvent) (v : Vfs) : Prop :=
  ∀ i path got, readFrom i events = some (path, got) → ∃ d, v.fdTable i = some d ∧
    d.path = path ∧ UpTo (content path) got d.pos.toNat

/-- One call more, and what it did not touch. -/
structure Separate (events : List FileEvent) (v : Vfs) (e : FileEvent) (v' : Vfs) : Prop where
  /-- A descriptor in use is not returned. -/
  fresh : ∀ path i, e = .open path (some i) → v.fdTable i = none
  apart : ∀ i, ¬ e.On i → v'.fdTable i = v.fdTable i
  /-- Nothing is returned for something only when everything has been. -/
  ended : ∀ (i : Fin vfsMaxFds) bytes path got, e = .read (i.val : Int) bytes (some []) →
    bytes ≠ 0 → readFrom i events = some (path, got) → got = content path

variable {content} {events : List FileEvent} {v v' : Vfs} {e : FileEvent}

theorem readFrom_snoc (i : Fin vfsMaxFds) (events : List FileEvent) (e : FileEvent) :
    readFrom i (events ++ [e]) = e.note i (readFrom i events) := by
  rw [readFrom, List.foldl_append]
  rfl

/-- What a call is not made on, it leaves noted as it was. -/
theorem FileEvent.note_of_not_on {i : Fin vfsMaxFds} (h : ¬ e.On i)
    (got : Option (List UInt8 × List UInt8)) : e.note i got = got := by
  cases e with
  | «open» path fd => exact if_neg h
  | close fd => exact if_neg h
  | read fd bytes out => exact if_neg h
  | other => rfl

theorem FileStep.fresh (h : FileStep content v e v') {path : List UInt8} {i : Fin vfsMaxFds}
    (he : e = .open path (some i)) : v.fdTable i = none := by
  cases h with
  | «open» path flags =>
    rcases vfsOpen_cases path flags v with hopen | ⟨kind, j, -, hfree, hopen⟩ <;>
      rw [hopen] at he <;> cases he
    exact hfree
  | close fd => cases he
  | read hsame hrun => cases he
  | other k => cases he

theorem FileStep.apart (h : FileStep content v e v') {i : Fin vfsMaxFds} (hi : ¬ e.On i) :
    v'.fdTable i = v.fdTable i := by
  cases h with
  | «open» path flags =>
    rcases vfsOpen_cases path flags v with hopen | ⟨kind, j, -, -, hopen⟩
    · rw [hopen]
    · rw [hopen] at hi ⊢
      exact Function.update_of_ne (fun hij => hi (by rw [hij]; rfl)) _ _
  | close fd =>
    rcases vfsClose_cases fd v with hclose | ⟨j, d, rfl, -, hclose⟩
    · rw [hclose]
    · rw [hclose]
      exact Function.update_of_ne (fun hij => hi (by rw [hij]; rfl)) _ _
  | read hsame hrun =>
    rcases vfsRead_inv hrun with ⟨-, rfl⟩ | ⟨j, d, pos, k, rfl, -, -, -, rfl⟩
    · rfl
    · exact Function.update_of_ne (fun hij => hi (by rw [hij]; rfl)) _ _
  | other k => rfl

/-- **A read of a descriptor that has been handed out what it stands behind.** -/
theorem readFromNode_handed (hshort : ∀ path, (content path).length < vfsScratchMax)
    {i : Fin vfsMaxFds} {d : VfsFd} {f : ReadFrame} (hd : v.fdTable i = some d)
    (hflags : d.flags ≠ vfsOWronly) {got : List UInt8} (h : UpTo (content d.path) got d.pos.toNat)
    (hsame : Unchanged content (i.val : Int) f v) (bytes : UInt64) : ∃ rendered out pos k,
      nodeContent d f v.nodes = .ok rendered ∧ readFromNode d bytes f v.nodes = .ok (out, pos, k) ∧
        ReadStep (content d.path) (rendered = none) d.pos bytes out pos := by
  obtain ⟨rendered, hnode, htext⟩ := hsame i d (by rw [findFd_fin, hd]; rfl) hflags
  obtain ⟨out, pos, k, hread, hstep⟩ := readFromNode_step hnode htext (hshort _) h.pos_le bytes
  exact ⟨rendered, out, pos, k, hnode, hread, hstep⟩

theorem ReadStep.upTo {data got : List UInt8} {faults : Prop} {pos pos' : UInt32} {bytes : UInt64}
    {out : Option (List UInt8)} (h : ReadStep data faults pos bytes out pos')
    (hgot : UpTo data got pos.toNat) : UpTo data (got ++ out.getD []) pos'.toNat := by
  rcases h with ⟨-, rfl, rfl⟩ | ⟨rfl, hpos'⟩
  · rwa [Option.getD_none, List.append_nil]
  · rw [hpos']
    exact hgot.read bytes.toNat

/-- **One call more.** -/
theorem HandedOut.step (hshort : ∀ path, (content path).length < vfsScratchMax)
    (h : HandedOut content events v) (hstep : FileStep content v e v') :
    HandedOut content (events ++ [e]) v' := by
  intro i path got hnoted
  rw [readFrom_snoc] at hnoted
  -- an event of another descriptor leaves this one's entry and what it returned
  by_cases hon : e.On i
  case neg =>
    rw [FileEvent.note_of_not_on hon] at hnoted
    rw [hstep.apart hon]
    exact h i path got hnoted
  cases hstep with
  | «open» path' flags =>
    rcases vfsOpen_cases path' flags v with hopen | ⟨kind, j, -, -, hopen⟩
    · rw [hopen] at hon
      cases hon
    · rw [hopen] at hon hnoted ⊢
      obtain rfl := Option.some.inj hon
      simp only [FileEvent.note, if_true, Option.some.injEq, Prod.mk.injEq] at hnoted
      obtain ⟨rfl, rfl⟩ := hnoted
      exact ⟨⟨flags, 0, kind, path'⟩, Function.update_self .., rfl, UpTo.start _⟩
  | close fd =>
    simp only [FileEvent.On] at hon
    simp only [FileEvent.note, if_pos hon] at hnoted
    cases hnoted
  | read hsame hrun =>
    obtain rfl := hon
    simp only [FileEvent.note, if_true, Option.map_eq_some_iff] at hnoted
    obtain ⟨⟨path₀, got₀⟩, hbefore, heq⟩ := hnoted
    obtain ⟨rfl, rfl⟩ := Prod.mk.inj heq
    -- what was returned so far ends at the position, where this read starts
    obtain ⟨d, hd, rfl, hup⟩ := h i path₀ got₀ hbefore
    rcases vfsRead_inv hrun with ⟨rfl, rfl⟩ | ⟨j, d', pos, k, hij, hd', hflags, hread, rfl⟩
    · exact ⟨d, hd, rfl, by rwa [Option.getD_none, List.append_nil]⟩
    · obtain rfl : i = j := Fin.ext (by exact_mod_cast hij)
      obtain rfl : d = d' := Option.some.inj (hd.symm.trans hd')
      obtain ⟨rendered, out, pos', k', -, hread', hnext⟩ :=
        readFromNode_handed hshort hd hflags hup hsame _
      rw [hread, Except.ok.injEq, Prod.mk.injEq, Prod.mk.injEq] at hread'
      obtain ⟨rfl, rfl, rfl⟩ := hread'
      exact ⟨{ d with pos }, Function.update_self .., rfl, hnext.upTo hup⟩
  | other k => cases hon

theorem HandedOut.ended (hshort : ∀ path, (content path).length < vfsScratchMax)
    (h : HandedOut content events v) (hstep : FileStep content v e v') {i : Fin vfsMaxFds}
    {bytes : UInt64} {path got : List UInt8} (he : e = .read (i.val : Int) bytes (some []))
    (hbytes : bytes ≠ 0) (hnoted : readFrom i events = some (path, got)) : got = content path := by
  obtain ⟨d, hd, rfl, hup⟩ := h i path got hnoted
  cases hstep with
  | «open» path' flags => cases he
  | close fd => cases he
  | other k => cases he
  | read hsame hrun =>
    cases he
    rcases vfsRead_inv hrun with ⟨hnone, -⟩ | ⟨j, d', pos, k, hij, hd', hflags, hread, -⟩
    · cases hnone
    · obtain rfl : i = j := Fin.ext (by exact_mod_cast hij)
      obtain rfl : d = d' := Option.some.inj (hd.symm.trans hd')
      obtain ⟨rendered, out, pos', k', -, hread', hnext⟩ :=
        readFromNode_handed hshort hd hflags hup hsame bytes
      rw [hread, Except.ok.injEq, Prod.mk.injEq] at hread'
      obtain ⟨rfl, -⟩ := hread'
      rcases hnext with ⟨-, hnone, -⟩ | ⟨hend, -⟩
      · cases hnone
      · have hpos : 0 < bytes.toNat :=
          Nat.pos_of_ne_zero fun hzero => hbytes (UInt64.toNat_inj.mp hzero)
        exact hup.whole hpos (Option.some.inj hend).symm

theorem FileRun.handedOut (hshort : ∀ path, (content path).length < vfsScratchMax) {v₀ : Vfs}
    (h : FileRun content v₀ events v) : HandedOut content events v := by
  induction h with
  | start => exact fun i path got hnoted => by cases hnoted
  | step _ hstep ih => exact ih.step hshort hstep

/-- A descriptor opened in the run can be read: the read fails only when the node renders
    nothing, or the descriptor is for writing. -/
theorem HandedOut.reads (hshort : ∀ path, (content path).length < vfsScratchMax)
    (h : HandedOut content events v) {i : Fin vfsMaxFds} {path got : List UInt8}
    (hnoted : readFrom i events = some (path, got)) {f : ReadFrame}
    (hsame : Unchanged content (i.val : Int) f v) (bytes : UInt64) :
    ∃ out v', vfsRead (i.val : Int) bytes f v = .ok (out, v') ∧ (out = none →
      ∃ d, v.fdTable i = some d ∧ (d.flags = vfsOWronly ∨ nodeContent d f v.nodes = .ok none)) := by
  obtain ⟨d, hd, rfl, hup⟩ := h i path got hnoted
  have hfind : v.findFd (i.val : Int) = some (i, d) := by
    rw [findFd_fin, hd]
    rfl
  by_cases hflags : d.flags = vfsOWronly
  · refine ⟨none, v, ?_, fun _ => ⟨d, hd, Or.inl hflags⟩⟩
    simp only [vfsRead, hfind, if_pos hflags]
  · obtain ⟨rendered, out, pos, k, hnode, hread, hstep⟩ :=
      readFromNode_handed hshort hd hflags hup hsame bytes
    refine ⟨out, ⟨Function.update v.fdTable i (some { d with pos }), k⟩,
      by simp only [vfsRead, hfind, if_neg hflags, hread, bind, Except.bind],
      fun hnone => ⟨d, hd, Or.inr ?_⟩⟩
    rcases hstep with ⟨rfl, -⟩ | ⟨hsome, -⟩
    · exact hnode
    · rw [hnone] at hsome
      cases hsome

/-- **Descriptor reads partition the content.** In every run whose reads find the contents of
    their nodes unchanged, and shorter than the scratch buffer: what the reads of a descriptor
    returned, put together, is the front of its node's content up to the descriptor's position;
    and every call that is made next keeps to its own descriptor.

    `content` is what the nodes render, one text for each path, as long as the run is looked at;
    `hshort` keeps it within the scratch buffer, where a longer text would be cut. `h` is any run of
    opens, closes and reads, on any descriptors, with anything else in between; of a read it asks
    that its node renders the text that `content` says. -/
theorem descriptor_reads_partition (hshort : ∀ path, (content path).length < vfsScratchMax)
    {v₀ : Vfs} (h : FileRun content v₀ events v) :
    HandedOut content events v ∧
      ∀ e v', FileStep content v e v' → Separate content events v e v' := by
  have hhanded := h.handedOut hshort
  exact ⟨hhanded, fun e v' hstep => ⟨fun path i he => hstep.fresh he, fun i hi => hstep.apart hi,
    fun i bytes path got he hbytes hnoted => hhanded.ended hshort hstep he hbytes hnoted⟩⟩

end

/-- A text that fits is shown as it is. -/
theorem shownText_rendered {text : List UInt8} (h : text.length ≤ vfsScratchMax - 1)
    (scratch : Nat → UInt8) :
    shownText scratch (rendered (UInt32.ofNat vfsScratchMax) text) = text := by
  have hmax : vfsScratchMax = 1024 := rfl
  have htotal : (UInt32.ofNat text.length).toNat = text.length :=
    UInt32.toNat_ofNat_of_lt' (by simp only [UInt32.size]; omega)
  rw [shownText, rendered_eq (by decide) text (by omega), toNat_scratchMax,
    List.take_of_length_le h, htotal, textBuffer_contents _ (Nat.le_refl _), List.take_length]

/-- What `/net/tx` says of itself, and a descriptor it is opened on. -/
def endpointText : List UInt8 := cstr "write-only endpoint for outbound packets\n"

def endpointFd : VfsFd := ⟨vfsORdonly, 0, .net, cstr "/net/tx"⟩

/-- Opened in a kernel with nothing open, and its first eight characters read. -/
theorem descriptor_reads_partition_endpoint : ∃ v, HandedOut (fun _ => endpointText)
    [.open (cstr "/net/tx") (some 0), .read 0 8 (some (cstr "write-on"))] v := by
  let v₀ := vfsOver shortSession
  let f : ReadFrame := ⟨fun _ => 0, fun _ => 0, fun _ => 0⟩
  have hopen : FileRun (fun _ => endpointText) v₀ [.open (cstr "/net/tx") (some 0)]
      (vfsOpen (cstr "/net/tx") vfsORdonly v₀).2 := .step .start (.open (cstr "/net/tx") vfsORdonly)
  let v₁ := (vfsOpen (cstr "/net/tx") vfsORdonly v₀).2
  have hfind : v₁.findFd 0 = some (0, endpointFd) := rfl
  have hnode : nodeContent endpointFd f v₁.nodes = .ok (some endpointText) := by
    have hrender : renderNode endpointFd f.stack f.around v₁.nodes =
        .ok (some (rendered (UInt32.ofNat vfsScratchMax) endpointText), v₁.nodes) := rfl
    have htext : endpointText.length ≤ vfsScratchMax - 1 := by decide
    show (do
      let (r, _) ← renderNode endpointFd f.stack f.around v₁.nodes
      Except.ok (r.map (shownText f.scratch))) = _
    rw [hrender]
    exact congrArg (fun text => Except.ok (some text)) (shownText_rendered htext f.scratch)
  have hwhole : ∀ text, some endpointText = some text → text = endpointText :=
    fun text htext => (Option.some.inj htext).symm
  obtain ⟨out, pos, k, hread, hstep⟩ := readFromNode_step hnode hwhole (by decide) (Nat.zero_le _) 8
  obtain ⟨hout, -⟩ := hstep.resolve_left fun hno => by cases hno.1
  have hrun : vfsRead 0 8 f v₁ = .ok (some (cstr "write-on"),
      ⟨Function.update v₁.fdTable 0 (some { endpointFd with pos }), k⟩) := by
    rw [vfsRead, hfind]
    simp only [hread, bind, Except.bind]
    rw [if_neg (by decide), hout]
    rfl
  refine ⟨_, (descriptor_reads_partition (fun _ => by decide)
    (.step hopen (.read (f := f) (fun i d hd _ => ?_) hrun))).1⟩
  obtain ⟨rfl, rfl⟩ := Prod.mk.inj (Option.some.inj (hfind.symm.trans hd))
  exact ⟨some endpointText, hnode, hwhole⟩

end Proof
end BumbelBee
