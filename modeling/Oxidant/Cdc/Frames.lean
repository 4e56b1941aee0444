import Oxidant.Cdc.PgoutputEncoding

/-! Frames of the replication connection: `read_frame` over a buffer that outlives the call, for every
way the socket hands over the bytes and every timeout of `next_wire` between two reads. -/
namespace Oxidant.Cdc.Frames
open List Reader

structure Frame where
  tag : UInt8
  body : List UInt8

/-- What the socket does next: one read's bytes, none of them at its end, or nothing within `idle`. -/
inductive Arrival
  | read (bytes : List UInt8)
  | idle

inductive Answer
  | frame (frame : Frame)
  | badLength (length : Nat)
  | closed
  | timedOut
  | waiting

/-- The test of the buffer at the top of the loop. -/
def split (buf : List UInt8) : Option (Answer × List UInt8) :=
  if 5 ≤ buf.length then
    let length := bigEndian ((buf.drop 1).take 4)
    if length < 4 then some (.badLength length,buf)
    else if length + 1 ≤ buf.length then
      some (.frame ⟨buf.headD 0,(buf.take (length + 1)).drop 5⟩,buf.drop (length + 1))
    else none
  else none

def readFrame (buf : List UInt8) (arrivals : List Arrival) : Answer × List UInt8 × List Arrival :=
  match split buf with
  | some (answer,buf) => (answer,buf,arrivals)
  | none => match arrivals with
    | [] => (.waiting,buf,[])
    | .idle :: later => (.timedOut,buf,later)
    | .read [] :: later => (.closed,buf,later)
    | .read bytes :: later => readFrame (buf ++ bytes) later

/-- The answers of so many calls, one after the other. -/
def calls : Nat → List UInt8 → List Arrival → List Answer
  | 0,_,_ => []
  | count+1,buf,arrivals =>
    let (answer,buf,arrivals) := readFrame buf arrivals
    answer :: calls count buf arrivals

def Frame.encode (frame : Frame) : List UInt8 :=
  frame.tag :: bytesOf 4 (frame.body.length + 4) ++ frame.body

def Arrival.bytes : Arrival → List UInt8
  | .read bytes => bytes
  | .idle => []

def Arrival.isIdle : Arrival → Bool
  | .idle => true
  | .read _ => false

variable {frame : Frame} {frames : List Frame} {buf rest : List UInt8}

lemma length_encode : frame.encode.length = frame.body.length + 5 := by
  simp [Frame.encode]
  omega

lemma split_whole (fits : frame.body.length + 4 < 2^32) :
    split (frame.encode ++ rest) = some (.frame frame,rest) := by
  have length : bigEndian (((frame.encode ++ rest).drop 1).take 4) = frame.body.length + 4 := by
    simp only [Frame.encode,cons_append,drop_succ_cons,drop_zero,append_assoc]
    rw [take_left' length_bytesOf,bigEndian_bytesOf,Nat.mod_eq_of_lt (by omega)]
  have size : frame.encode.length = frame.body.length + 4 + 1 := length_encode
  simp only [split,length,length_append]
  rw [if_pos (by omega),if_neg (by omega),if_pos (by omega),take_left' size,drop_left' size]
  simp [Frame.encode,drop_left']

lemma split_part (fits : frame.body.length + 4 < 2^32) (part : buf ++ gap = frame.encode) (some : gap ≠ []) :
    split buf = none := by
  have size := congrArg length part
  rw [length_append,length_encode] at size
  have := length_pos_iff.mpr some
  by_cases header : 5 ≤ buf.length
  · have length : bigEndian ((buf.drop 1).take 4) = frame.body.length + 4 := by
      have := congrArg (fun bytes => (bytes.drop 1).take 4) part
      simp only [Frame.encode,cons_append,drop_succ_cons,drop_zero] at this
      rw [drop_append_of_le_length (by omega),take_append_of_le_length (by simp; omega),take_left' (by simp)] at this
      rw [this,bigEndian_bytesOf,Nat.mod_eq_of_lt (by omega)]
    simp only [split,length]
    rw [if_pos header,if_neg (by omega),if_neg (by omega)]
  · rw [split,if_neg header]

lemma split_sent {ahead} (fits : ∀ frame ∈ frames, frame.body.length + 4 < 2^32)
    (sent : buf ++ ahead = frames.flatMap Frame.encode) :
    (∃ frame later more, frames = frame :: later ∧ split buf = some (.frame frame,more) ∧
      more ++ ahead = later.flatMap Frame.encode) ∨ split buf = none ∧ (frames = [] ∨ ahead ≠ []) := by
  cases frames with
  | nil =>
    obtain ⟨rfl,rfl⟩ := append_eq_nil_iff.mp sent
    exact .inr ⟨rfl,.inl rfl⟩
  | cons frame later =>
    have fits := fits frame mem_cons_self
    rcases append_eq_append_iff.mp sent with ⟨gap,part,left⟩ | ⟨more,rfl,left⟩
    · by_cases none : gap = []
      · subst none
        refine .inl ⟨frame,later,[],rfl,?_,left⟩
        have := @split_whole frame [] fits
        rwa [part,append_nil,append_nil] at this
      · refine .inr ⟨split_part fits part.symm none,.inr fun nothing => none ?_⟩
        rw [nothing] at left
        exact (append_eq_nil_iff.mp left.symm).1
    · exact .inl ⟨frame,later,more,rfl,split_whole fits,left.symm⟩

/-- One call takes the next frame, or uses up one timeout and leaves every byte where a later call finds it. -/
lemma readFrame_sent (fits : ∀ frame ∈ frames, frame.body.length + 4 < 2^32) (arrivals : List Arrival)
    (alive : Arrival.read [] ∉ arrivals) (buf : List UInt8)
    (sent : buf ++ arrivals.flatMap Arrival.bytes = frames.flatMap Frame.encode) :
    ∃ answer left later, readFrame buf arrivals = (answer,left,later) ∧ later <:+ arrivals ∧
      ((∃ frame others, frames = frame :: others ∧ answer = .frame frame ∧
          left ++ later.flatMap Arrival.bytes = others.flatMap Frame.encode) ∨
        left ++ later.flatMap Arrival.bytes = frames.flatMap Frame.encode ∧ (answer = .waiting ∧ frames = [] ∨
          answer = .timedOut ∧ later.countP Arrival.isIdle < arrivals.countP Arrival.isIdle)) := by
  have reached := split_sent fits sent
  fun_induction readFrame buf arrivals with
  | case1 arrivals buf answer more found =>
    obtain ⟨frame,others,more,rfl,met,left⟩ | ⟨missing,_⟩ := reached
    · cases found.symm.trans met
      exact ⟨_,more,arrivals,rfl,suffix_rfl,.inl ⟨frame,others,rfl,rfl,left⟩⟩
    · cases found.symm.trans missing
  | case2 buf missing =>
    obtain ⟨frame,others,more,rfl,met,left⟩ | ⟨_,ended⟩ := reached
    · cases missing.symm.trans met
    · exact ⟨_,buf,[],rfl,suffix_rfl,.inr ⟨sent,.inl ⟨rfl,ended.resolve_right (absurd rfl)⟩⟩⟩
  | case3 buf missing later =>
    refine ⟨_,buf,later,rfl,suffix_cons ..,.inr ⟨sent,.inr ⟨rfl,?_⟩⟩⟩
    rw [countP_cons_of_pos rfl]
    exact Nat.lt_succ_self _
  | case4 => exact absurd mem_cons_self alive
  | case5 buf missing bytes later some ih =>
    have sent : buf ++ bytes ++ later.flatMap Arrival.bytes = frames.flatMap Frame.encode :=
      (append_assoc ..).trans sent
    obtain ⟨answer,left,last,run,suffix,outcome⟩ :=
      ih (fun mem => alive (mem_cons_of_mem _ mem)) sent (split_sent fits sent)
    refine ⟨answer,left,last,run,suffix.trans (suffix_cons ..),?_⟩
    rwa [countP_cons_of_neg Bool.false_ne_true]

def Answer.frame? : Answer → Option Frame
  | .frame frame => some frame
  | _ => none

/-- However the bytes arrive, the calls return the frames in their order and nothing else, and as many
calls as there are frames and timeouts return them all. -/
theorem frames_reassembled (frames : List Frame) (arrivals : List Arrival) (count : Nat)
    (fits : ∀ frame ∈ frames, frame.body.length + 4 < 2^32) (alive : Arrival.read [] ∉ arrivals)
    (sent : arrivals.flatMap Arrival.bytes = frames.flatMap Frame.encode) :
    (calls count [] arrivals).filterMap Answer.frame? <+: frames ∧
      (∀ answer ∈ calls count [] arrivals, answer = .timedOut ∨ answer = .waiting ∨ answer.frame?.isSome) ∧
      (frames.length + arrivals.countP Arrival.isIdle ≤ count →
        (calls count [] arrivals).filterMap Answer.frame? = frames) := by
  replace sent : [] ++ arrivals.flatMap Arrival.bytes = frames.flatMap Frame.encode := sent
  generalize ([] : List UInt8) = buf at sent ⊢
  induction count generalizing frames arrivals buf with
  | zero =>
    refine ⟨ nil_prefix,nofun,fun enough => ?_⟩
    exact (length_eq_zero_iff.mp (by omega)).symm
  | succ count ih =>
    obtain ⟨answer,left,later,run,suffix,outcome⟩ := readFrame_sent fits arrivals alive buf sent
    have alive : Arrival.read [] ∉ later := fun mem => alive (suffix.mem mem)
    have fewer := suffix.sublist.countP_le (p := Arrival.isIdle)
    rw [calls,run]
    dsimp only
    rcases outcome with ⟨frame,others,rfl,rfl,sent⟩ | ⟨sent,⟨rfl,none⟩ | ⟨rfl,less⟩⟩
    · obtain ⟨front,kinds,whole⟩ :=
        ih others later (fun frame mem => fits frame (mem_cons_of_mem _ mem)) alive left sent
      refine ⟨cons_prefix_cons.mpr ⟨rfl,front⟩,forall_mem_cons.mpr ⟨.inr (.inr rfl),kinds⟩,fun enough => ?_⟩
      rw [length_cons] at enough
      exact congrArg (cons frame) (whole (by omega))
    · obtain ⟨front,kinds,whole⟩ := ih frames later fits alive left sent
      refine ⟨front,forall_mem_cons.mpr ⟨.inr (.inl rfl),kinds⟩,fun enough => ?_⟩
      subst none
      exact prefix_nil.mp front
    · obtain ⟨front,kinds,whole⟩ := ih frames later fits alive left sent
      exact ⟨front,forall_mem_cons.mpr ⟨.inl rfl,kinds⟩,fun enough => whole (by omega)⟩

theorem frame_over_three_reads :
    (calls 3 [] [.read [100,0],.idle,.read [0,0,6,1],.read [2]]).filterMap Answer.frame? = [⟨100,[1,2]⟩] := by
  apply (frames_reassembled [⟨100,[1,2]⟩] _ 3 (by decide) (by simp) rfl).2.2
  decide

end Oxidant.Cdc.Frames
