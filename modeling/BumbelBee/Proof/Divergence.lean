import BumbelBee.Proof.Replay

/-!
# What a divergence report shows

A replay that has met a mismatch stands before the entry it was about and goes on comparing:
each later call is compared with the same entry, and one that agrees moves the replay on. The
report of `trace_replay_end` is read off the replay state, so it is about the last call made,
and about the first mismatch only when nothing behind it agreed and the last call repeats it
(`divergence_report_iff`).

The documents of the repository speak of the first mismatch, and the report has a record for one. It
is written at every comparison, though, and `trace_replay_end` reports what it last holds. What is
asked of the calls behind the first mismatch is therefore exact and not a bound: one that agrees
moves the index, and one that disagrees in another way replaces the words.
-/

namespace BumbelBee
namespace Proof

open Lib Kernel

/-! ## The calls a replay sees

A replay does not see the interrupts' calls if a recording with a profile is on at the same time; it
sees every other call. The report is about the calls it sees.
-/

/-- A call the filter drops does nothing. -/
theorem RecordCall.run_unseen {c : RecordCall} {t : Trace} (h : c.seen t = false) :
    c.run t = t := by
  have hit : filtered t c = true := by
    rwa [RecordCall.seen, Bool.not_eq_false'] at h
  have hran := c.ran t
  generalize c.run t = t' at hran ⊢
  cases hran with
  | hidden => rfl
  | compared pass | closed pass | full pass | stored pass =>
    rw [hit] at pass
    cases pass

theorem RecordCall.seen_run (c c' : RecordCall) (t : Trace) : c'.seen (c.run t) = c'.seen t := by
  have hkept := c.run_kept t
  rw [RecordCall.seen, RecordCall.seen, hkept.recording, hkept.currentProfile]

/-- The calls that are dropped might as well not have been made. -/
theorem recordAll_seen (cs : List RecordCall) (t : Trace) :
    recordAll cs t = recordAll (cs.filter fun c => c.seen t) t := by
  induction cs generalizing t with
  | nil => rfl
  | cons c cs ih =>
    have hrest := ih (c.run t)
    simp only [RecordCall.seen_run] at hrest
    show recordAll cs (c.run t) = _
    cases hseen : c.seen t with
    | true =>
      rw [List.filter_cons, if_pos hseen, hrest]
      rfl
    | false =>
      rw [List.filter_cons, if_neg (by rw [hseen]; exact Bool.false_ne_true), hrest,
        RecordCall.run_unseen hseen]

/-- **Every call that is seen**: the run of the walk. -/
theorem Replaying.runSeen {es : List TraceEvent} {start : UInt64} (cs : List RecordCall)
    {w : Walk TraceEvent} {t : Trace} (h : Replaying es start w t)
    (hseen : ∀ c ∈ cs, c.seen t = true) :
    Replaying es start (w.run RecordCall.agrees cs) (recordAll cs t) := by
  induction cs generalizing w t with
  | nil => exact h
  | cons c cs ih =>
    refine ih (h.stepSeen (hseen c List.mem_cons_self)) fun c' hc' => ?_
    rw [RecordCall.seen_run]
    exact hseen c' (List.mem_cons_of_mem c hc')

theorem recordAll_session : ∀ (cs : List RecordCall) {t : Trace}, t.replay.active = true →
    (recordAll cs t).replay.sessionId = t.replay.sessionId ∧ (recordAll cs t).replay.active = true
  | [], _, h => ⟨rfl, h⟩
  | c :: cs, t, h => by
    have hone : (c.run t).replay.sessionId = t.replay.sessionId ∧
        (c.run t).replay.active = true := by
      cases hseen : c.seen t with
      | false =>
        rw [RecordCall.run_unseen hseen]
        exact ⟨rfl, h⟩
      | true =>
        obtain ⟨event, -, hrun⟩ := RecordCall.run_replaying h hseen
        rw [hrun, replayRecord]
        simp only
        split
        · exact ⟨rfl, h⟩
        · split <;> exact ⟨rfl, h⟩
    obtain ⟨hsession, hactive⟩ := recordAll_session cs hone.2
    exact ⟨hsession.trans hone.1, hactive⟩

/-! ## The report

The record is written by every comparison, and the index moved by every match; so what is shown is
the last comparison, with the index as it is at the end.
-/

/-- Behind a call, the report is about that call and the entry it was compared with. -/
theorem Replaying.compared {es : List TraceEvent} {start : UInt64} {w : Walk TraceEvent}
    {t : Trace} (h : Replaying es start w t) {c : RecordCall} (hseen : c.seen t = true)
    {e : TraceEvent} {rest : List TraceEvent} (hrest : w.rest = e :: rest) :
    (c.run t).replay.expected = e ∧ (c.run t).replay.actual.shown = c.shown := by
  have hlt : t.replay.eventIndex.toNat < es.length := by
    refine Nat.lt_of_not_le fun hle => ?_
    rw [h.rest, List.drop_of_length_le hle] at hrest
    cases hrest
  have he : eventAt t.replayBuffer t.replay.eventIndex.toNat = e := by
    have hcons := h.rest.symm.trans hrest
    rw [List.drop_eq_getElem_cons hlt, List.cons.injEq] at hcons
    rw [eventAt_of_contents h.log hlt, hcons.1]
  have hmore : ¬ t.replay.eventIndex ≥ t.replay.eventCount := by
    rw [ge_iff_le, UInt32.le_iff_toNat_le, h.count]
    exact Nat.not_le_of_lt hlt
  obtain ⟨event, hshown, hrun⟩ := c.run_replaying h.active hseen
  rw [hrun]
  simp only [replayRecord, if_neg hmore, he]
  split <;> exact ⟨rfl, hshown⟩

/-- The index of a replay is the number of entries it has left behind. -/
theorem Replaying.index_iff {es : List TraceEvent} {start : UInt64} {w : Walk TraceEvent}
    {t : Trace} (h : Replaying es start w t) {k : Nat} (hk : k < es.length) :
    t.replay.eventIndex = UInt32.ofNat k ↔ w.rest = es.drop k := by
  have hcount := h.count
  have hlt := t.replay.eventCount.toNat_lt
  have hindex := h.index
  rw [← UInt32.toNat_inj, UInt32.toNat_ofNat_of_lt' (by simp only [UInt32.size]; omega), h.rest]
  refine ⟨fun heq => by rw [heq], fun heq => ?_⟩
  have hlen := congrArg List.length heq
  rw [List.length_drop, List.length_drop] at hlen
  omega

theorem Replaying.divergence {es : List TraceEvent} {start : UInt64} {w : Walk TraceEvent}
    {t : Trace} (h : Replaying es start w t) (hfailed : w.failed = true) :
    traceReplayDivergence t = some ⟨t.replay.sessionId, t.replay.eventIndex,
      t.replay.expected.shown, t.replay.actual.shown⟩ := by
  have hend : (traceReplayEnd t).replay.failed = true := by
    rw [← Bool.not_eq_false, h.ends, Walk.accepts, hfailed]
    exact fun hacc => Bool.noConfusion hacc.1
  rw [traceReplayDivergence, h.active, hend]
  rfl

/-- **The report and the first mismatch**, from any point of a replay where everything has
    matched so far. -/
theorem Replaying.report_iff {es : List TraceEvent} {start : UInt64} {t : Trace}
    (h : Replaying es start (Walk.start es) t) {matched later : List RecordCall}
    {mismatch : RecordCall} (hseen : ∀ c ∈ matched ++ mismatch :: later, c.seen t = true)
    (hmatched : List.Forall₂ (fun c e => RecordCall.agrees c e = true) matched
      (es.take matched.length))
    (hk : matched.length < es.length) (hmismatch : mismatch.agrees es[matched.length] = false) :
    traceReplayDivergence (recordAll (matched ++ mismatch :: later) t) =
        some ⟨t.replay.sessionId, UInt32.ofNat matched.length, es[matched.length].shown,
          mismatch.shown⟩ ↔
      (∀ c ∈ later, c.agrees es[matched.length] = false) ∧
        ((mismatch :: later).getLast (List.cons_ne_nil _ _)).shown = mismatch.shown := by
  have hdrop : es.drop matched.length = es[matched.length] :: es.drop (matched.length + 1) :=
    List.drop_eq_getElem_cons hk
  have hall := h.runSeen _ hseen
  have hbefore : ((Walk.start es).run RecordCall.agrees matched).rest =
      es[matched.length] :: es.drop (matched.length + 1) :=
    Walk.run_matched (by rw [← hdrop]; exact (List.take_append_drop _ _).symm) hmatched
  have hfailed : ((Walk.start es).run RecordCall.agrees (matched ++ mismatch :: later)).failed =
      true := by
    rw [Walk.run_append, Walk.run_cons]
    refine Walk.run_failed later ?_
    simp only [Walk.step, hbefore, hmismatch, Bool.false_eq_true, if_false]
  have hstands : ((Walk.start es).run RecordCall.agrees (matched ++ mismatch :: later)).rest =
      es.drop matched.length ↔ ∀ c ∈ later, c.agrees es[matched.length] = false := by
    rw [Walk.run_append, hdrop, Walk.stands_iff hbefore, List.forall_mem_cons]
    exact and_iff_right hmismatch
  rw [hall.divergence hfailed, (recordAll_session _ h.active).1, Option.some.injEq,
    DivergenceReport.mk.injEq, hall.index_iff hk, hstands]
  simp only [true_and]
  refine and_congr_right fun hlater => ?_
  -- the last call was compared with the entry of the mismatch
  obtain ⟨front, last, hlast⟩ : ∃ front last, mismatch :: later = front ++ [last] :=
    ⟨_, _, (List.dropLast_append_getLast (List.cons_ne_nil mismatch later)).symm⟩
  have hsplit : matched ++ mismatch :: later = matched ++ front ++ [last] := by
    rw [hlast, List.append_assoc]
  have hfront := h.runSeen (matched ++ front) fun c hc =>
    hseen c (by rw [hsplit]; exact List.mem_append_left _ hc)
  have hthere : ((Walk.start es).run RecordCall.agrees (matched ++ front)).rest =
      es[matched.length] :: es.drop (matched.length + 1) := by
    rw [Walk.run_append, Walk.stands_iff hbefore]
    intro c hc
    have hmem : c ∈ mismatch :: later := by
      rw [hlast]
      exact List.mem_append_left _ hc
    rcases List.mem_cons.mp hmem with rfl | hmem
    · exact hmismatch
    · exact hlater c hmem
  have hlastSeen : last.seen (recordAll (matched ++ front) t) = true := by
    have hkept : ∀ (cs : List RecordCall) (t : Trace), last.seen (recordAll cs t) = last.seen t := by
      intro cs
      induction cs with
      | nil => exact fun _ => rfl
      | cons c cs ih => exact fun t => (ih (c.run t)).trans (RecordCall.seen_run c last t)
    rw [hkept]
    exact hseen last (by rw [hsplit]; simp)
  obtain ⟨hexpected, hactual⟩ := hfront.compared hlastSeen hthere
  have hrun : recordAll (matched ++ mismatch :: later) t =
      last.run (recordAll (matched ++ front) t) := by
    rw [hsplit]
    exact List.foldl_append
  have hget : (mismatch :: later).getLast (List.cons_ne_nil _ _) = last := by
    simp only [hlast, List.getLast_append_singleton]
  rw [hrun, hexpected, hactual, hget]
  exact and_iff_right rfl

/-- A replay that began is known by the id it was asked for. -/
theorem begin_sessionId {id : UInt32} {t t₀ : Trace} {fs fs' : Fs} {session : TraceSessionInfo}
    (h : traceReplayBegin id t fs = .ok (some session, t₀, fs')) : t₀.replay.sessionId = id := by
  obtain ⟨bytes, buf, -, ⟨-, hnone, -⟩ | ⟨size, info, -, -, -, rfl⟩⟩ := traceReplayBegin_cases h
  · cases hnone
  · rfl

/-- **The first mismatch of a replay is what is reported** exactly when no later call agrees
    with the entry it was about, and the last call before `trace_replay_end` carries the
    words of the first mismatch again.

    `hfinds`, `hfit` and `hbegin` are as in `replay_verdict`. Of the calls made, those the replay
    compares (`hcalls`) are split at the first mismatch: `hmatched` are the entries before it, `hk`
    says that there is an entry it was about, and `hmismatch` that it does not agree with that. What
    comes later is arbitrary, and the right side is a condition on it alone. -/
theorem divergence_report_iff {fs : Fs} {i : Fin fsMaxInodes} {id : UInt32}
    {es : List TraceEvent} {info : Option TraceSessionInfo}
    (hfinds : Finds fs i id (encodeEvents es) info) (hfit : es.length ≤ traceBufferCap)
    {t t₀ : Trace} {fs' : Fs} {session : TraceSessionInfo}
    (hbegin : traceReplayBegin id t fs = .ok (some session, t₀, fs'))
    {calls matched later : List RecordCall} {mismatch : RecordCall}
    (hcalls : calls.filter (fun c => c.seen t₀) = matched ++ mismatch :: later)
    (hmatched : List.Forall₂ (fun c e => RecordCall.agrees c e = true) matched
      (es.take matched.length))
    (hk : matched.length < es.length) (hmismatch : mismatch.agrees es[matched.length] = false) :
    traceReplayDivergence (recordAll calls t₀) =
        some ⟨id, UInt32.ofNat matched.length, es[matched.length].shown, mismatch.shown⟩ ↔
      (∀ c ∈ later, c.agrees es[matched.length] = false) ∧
        ((mismatch :: later).getLast (List.cons_ne_nil _ _)).shown = mismatch.shown := by
  obtain ⟨-, -, hstart⟩ := hfinds.replaying hfit hbegin
  have hseen : ∀ c ∈ matched ++ mismatch :: later, c.seen t₀ = true := fun c hc => by
    rw [← hcalls] at hc
    exact (List.mem_filter.mp hc).2
  rw [recordAll_seen, hcalls, ← begin_sessionId hbegin]
  exact hstart.report_iff hseen hmatched hk hmismatch

/-- The second sample event comes first, and once more behind it. -/
theorem divergence_report_iff_repeated : ∃ session t₀ fs',
    traceReplayBegin 2 Trace.loaded sampleStore = .ok (some session, t₀, fs') ∧
      traceReplayDivergence (recordAll [sampleCalls[1], sampleCalls[1]] t₀) =
        some ⟨2, 0, ⟨TraceEventType.shell.code, 1, 3, 0⟩, sampleCalls[1].shown⟩ := by
  obtain ⟨i, hrecalls⟩ := sampleStore_recalls
  obtain ⟨t₀, hbegin⟩ := hrecalls.begins (by decide) Trace.loaded
  have hrec : t₀.recording = false := (hrecalls.replaying (by decide) hbegin).2.1
  refine ⟨_, t₀, _, hbegin, ?_⟩
  have hcalls : [sampleCalls[1], sampleCalls[1]].filter (fun c => c.seen t₀) =
      [] ++ sampleCalls[1] :: [sampleCalls[1]] := by simp [RecordCall.seen, hrec]
  exact (divergence_report_iff hrecalls.toFinds (by decide) hbegin hcalls List.Forall₂.nil
    (by decide) (by decide)).mpr ⟨by decide, by decide⟩

/-- The two sample events come in the other order: the second call agrees with the entry the
    first one missed, and the report is of an entry that matched. -/
theorem divergence_overwritten : ∃ session t₀ fs',
    traceReplayBegin 2 Trace.loaded sampleStore = .ok (some session, t₀, fs') ∧
      sampleCalls[1].agrees (recordedEvents 1 sampleCalls)[0] = false ∧
      traceReplayDivergence (recordAll sampleCalls.reverse t₀) =
        some ⟨2, 1, (recordedEvents 1 sampleCalls)[0].shown, sampleCalls[0].shown⟩ := by
  obtain ⟨i, hrecalls⟩ := sampleStore_recalls
  obtain ⟨t₀, hbegin⟩ := hrecalls.begins (by decide) Trace.loaded
  obtain ⟨-, hrec, hstart⟩ := hrecalls.replaying (by decide) hbegin
  have hseen : ∀ c : RecordCall, c.seen t₀ = true := fun c => by
    rw [RecordCall.seen, hrec]
    rfl
  have hfirst := hstart.stepSeen (hseen sampleCalls[1])
  have hnext : sampleCalls[0].seen (sampleCalls[1].run t₀) = true := by
    rw [RecordCall.seen_run]
    exact hseen _
  have hlast := hfirst.stepSeen hnext
  have hrest : ((Walk.start (recordedEvents 1 sampleCalls)).step RecordCall.agrees
      sampleCalls[1]).rest = (recordedEvents 1 sampleCalls)[0] :: (recordedEvents 1 sampleCalls).drop 1 :=
    rfl
  obtain ⟨hexpected, hactual⟩ := hfirst.compared hnext hrest
  have hsession : (sampleCalls[0].run (sampleCalls[1].run t₀)).replay.sessionId = 2 :=
    (recordAll_session [sampleCalls[1], sampleCalls[0]] hstart.active).1.trans
      (begin_sessionId hbegin)
  refine ⟨_, t₀, _, hbegin, by decide, ?_⟩
  rw [show recordAll sampleCalls.reverse t₀ = sampleCalls[0].run (sampleCalls[1].run t₀) from rfl,
    hlast.divergence (by decide), hexpected, hactual, hsession,
    (hlast.index_iff (k := 1) (by decide)).mpr rfl]
  rfl

end Proof
end BumbelBee
