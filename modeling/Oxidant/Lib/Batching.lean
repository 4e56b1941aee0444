import Oxidant.Lib.Upsert

/-! Events with increasing sequence values cut into batches. What a key's row becomes is decided by
the last of its events in each batch; the cut is of no matter exactly if the last event of all makes
the same row over what any earlier one would have left. -/
namespace Oxidant.Lib.Upsert
open List hiding after
open Keyed

variable {κ σ β τ : Type} [DecidableEq κ] [LinearOrder σ] (upsert : Upsert κ σ β τ)

def Increasing (events : List β) : Prop :=
  events.Pairwise fun one other => upsert.seq one < upsert.seq other

def Decides (before : β → β → Bool) (events : List β) : Prop :=
  ∀ one ∈ events, ∀ other ∈ events, upsert.seq one < upsert.seq other → before other one = true

def leave (event : β) (base : Option τ) : Option τ :=
  if upsert.deletes event then none else some (upsert.make event base)

def leaveLast (base : Option τ) (group : List β) : Option τ :=
  match group.getLast? with
  | none => base
  | some event => upsert.leave event base

def survives (events : List β) (base : Option τ) : Option τ :=
  base.filter fun found => past (upsert.cut events) (upsert.rowSeq found)

def counts (events : List β) (base : Option τ) (wanted : κ) (event : β) : Bool :=
  !upsert.truncates event && past (upsert.cut events) (upsert.seq event) &&
    decide (upsert.key event = wanted) &&
    (upsert.survives events base).all fun found => decide (upsert.rowSeq found < upsert.seq event)

def turn (wanted : κ) (base : Option τ) (batch : List β) : Option τ :=
  upsert.fate (upsert.survives batch base)
    ((upsert.applicable batch).filter fun event => upsert.key event = wanted).getLast?

variable {upsert} {before : β → β → Bool} {batch : List β} {table : List τ}

lemma row_merge_increasing (distinct : Distinct upsert.rowKey table)
    (lawful : ∀ event ∈ batch, upsert.Lawful event) (increasing : upsert.Increasing batch)
    (decides : upsert.Decides before batch) :
    row upsert.rowKey (upsert.merge before batch table) wanted =
      upsert.turn wanted (row upsert.rowKey table wanted) batch := by
  rw [row_merge distinct lawful,row_firstPerKey]
  · rfl
  · refine ((increasing.sublist filter_sublist).sublist filter_sublist).imp_of_mem ?_
    intro one other here there less
    exact decides one (mem_of_mem_filter (mem_of_mem_filter here)) other
      (mem_of_mem_filter (mem_of_mem_filter there)) less

section Turn
variable {wanted : κ} {base : Option τ}

omit [DecidableEq κ] in
lemma fate_getLast (increasing : upsert.Increasing group) :
    upsert.fate base group.getLast? = upsert.leaveLast base (group.filter fun event => base.all fun found =>
        decide (upsert.rowSeq found < upsert.seq event)) := by
  cases last : group.getLast? with
  | none =>
    rw [getLast?_eq_none_iff.mp last]
    rfl
  | some event => cases base with
    | none => simp [fate,leaveLast,leave,last]
    | some found =>
      obtain ⟨earlier,rfl⟩ := getLast?_eq_some_iff.mp last
      by_cases behind : upsert.rowSeq found < upsert.seq event
      · simp [fate,leaveLast,leave,behind,not_le.mpr behind]
      · -- Every event of the group is behind the row, as the last one is.
        have none : (earlier ++ [event]).filter (fun event =>
            decide (upsert.rowSeq found < upsert.seq event)) = [] := by
          rw [filter_eq_nil_iff]
          intro other mem
          rw [decide_eq_true_eq,not_lt]
          refine le_trans ?_ (not_lt.mp behind)
          rcases mem_append.mp mem with before | here
          · exact le_of_lt ((pairwise_append.mp increasing).2.2 other before event (mem_singleton_self _))
          · exact le_of_eq (by rw [mem_singleton.mp here])
        simp only [Option.all_some]
        rw [none]
        simp [fate,leaveLast,not_lt.mp behind]

lemma turn_eq (increasing : upsert.Increasing batch) :
    upsert.turn wanted base batch =
      upsert.leaveLast (upsert.survives batch base) (batch.filter (upsert.counts batch base wanted)) := by
  unfold turn applicable
  rw [fate_getLast ((increasing.sublist filter_sublist).sublist filter_sublist),filter_filter,filter_filter]
  unfold counts
  congr 2
  funext event
  ac_rfl

end Turn

section Cuts

omit [DecidableEq κ] in
lemma past_cut {seq : σ} :
    past (upsert.cut events) seq = true ↔
    ∀ event ∈ events, upsert.truncates event = true → upsert.seq event < seq := by
  unfold past cut
  cases last : ((events.filter upsert.truncates).map upsert.seq).max? with
  | none =>
    have none := max?_eq_none_iff.mp last
    simp only [map_eq_nil_iff,filter_eq_nil_iff] at none
    simp only [Option.all_none,true_iff]
    exact fun event mem truncates => absurd truncates (none event mem)
  | some top =>
    obtain ⟨mem,greatest⟩ := max?_eq_some_iff.mp last
    simp only [Option.all_some,decide_eq_true_eq]
    constructor
    · intro below event among truncates
      exact lt_of_le_of_lt (greatest _ (mem_map_of_mem (mem_filter.mpr ⟨among,truncates⟩))) below
    · intro all
      obtain ⟨event,among,rfl⟩ := mem_map.mp mem
      exact all event (mem_of_mem_filter among) (mem_filter.mp among).2

omit [DecidableEq κ] in
lemma past_cut_append (seq : σ) :
    past (upsert.cut (first ++ rest)) seq = (past (upsert.cut first) seq && past (upsert.cut rest) seq) := by
  rw [Bool.eq_iff_iff,Bool.and_eq_true,past_cut,past_cut,past_cut]
  simp only [mem_append]
  constructor
  · exact fun all => ⟨fun event mem => all event (.inl mem),fun event mem => all event (.inr mem)⟩
  · rintro ⟨before,after⟩ event (mem | mem)
    · exact before event mem
    · exact after event mem

omit [DecidableEq κ] in
lemma survives_append :
    upsert.survives (first ++ rest) base = upsert.survives rest (upsert.survives first base) := by
  unfold survives
  rw [Option.filter_filter]
  congr 1
  funext found
  rw [past_cut_append,Bool.and_comm]

variable {wanted : κ} {base : Option τ} {rest : List β}

omit [DecidableEq κ] in
lemma survives_of_past (past_ : ∀ seq, past (upsert.cut batch) seq = true) : upsert.survives batch base = base := by
  cases base <;> simp [survives,past_,Option.filter_some]

lemma counts_append (increasing : upsert.Increasing (batch ++ rest))
    (lawful : ∀ event ∈ batch, upsert.Lawful event) :
    let first := upsert.leaveLast (upsert.survives batch base) (batch.filter (upsert.counts batch base wanted))
    upsert.leaveLast (upsert.survives (batch ++ rest) base)
        (batch.filter (upsert.counts (batch ++ rest) base wanted)) = upsert.survives rest first ∧
      ∀ event ∈ rest, upsert.counts (batch ++ rest) base wanted event = upsert.counts rest first wanted event := by
  intro first
  have apart := (pairwise_append.mp increasing).2.2
  have here : upsert.leaveLast (upsert.survives (batch ++ rest) base)
      (batch.filter (upsert.counts (batch ++ rest) base wanted)) = upsert.survives rest first := by
    by_cases truncated : ∃ event ∈ rest, upsert.truncates event = true
    · -- A later truncation removes the row and all that the batch makes of it.
      obtain ⟨truncation,later,truncates⟩ := truncated
      have behind : ∀ event ∈ batch, past (upsert.cut rest) (upsert.seq event) = false := by
        intro event mem
        rw [Bool.eq_false_iff,ne_eq,past_cut]
        intro all
        exact lt_asymm (all truncation later truncates) (apart event mem truncation later)
      have none : batch.filter (upsert.counts (batch ++ rest) base wanted) = [] := by
        rw [filter_eq_nil_iff]
        intro event mem
        simp [counts,past_cut_append,behind event mem]
      rw [none,survives_append]
      change upsert.survives rest _ = upsert.survives rest (upsert.leaveLast _ _)
      unfold leaveLast
      split
      · rfl
      · next event last =>
        have mem := mem_of_getLast? last
        rw [mem_filter] at mem
        have gone := behind event mem.1
        have older : (upsert.survives batch base).all (fun found =>
            decide (upsert.rowSeq found < upsert.seq event)) = true := by
          simp only [counts,Bool.and_eq_true] at mem
          exact mem.2.2
        have first : upsert.survives rest (upsert.survives batch base) = .none := by
          cases there : upsert.survives batch base with
          | none => rfl
          | some found =>
            rw [there,Option.all_some,decide_eq_true_eq] at older
            have : past (upsert.cut rest) (upsert.rowSeq found) = false := by
              rw [Bool.eq_false_iff,ne_eq,past_cut] at gone ⊢
              exact fun all => gone fun event mem truncates => lt_trans (all event mem truncates) older
            simp [survives,Option.filter_some,this]
        rw [first]
        unfold leave
        split
        · rfl
        · simp [survives,Option.filter_some,(lawful event mem.1).make_seq,gone]
    · have untouched : ∀ seq, past (upsert.cut rest) seq = true := by
        intro seq
        rw [past_cut]
        exact fun event mem truncates => absurd ⟨event,mem,truncates⟩ truncated
      have same : upsert.counts (batch ++ rest) base wanted = upsert.counts batch base wanted := by
        funext event
        unfold counts
        rw [survives_append,survives_of_past untouched,past_cut_append,untouched,Bool.and_true]
      rw [survives_of_past untouched,survives_append,survives_of_past untouched,same]
  refine ⟨here,fun event mem => ?_⟩
  have passed : past (upsert.cut batch) (upsert.seq event) = true := by
    rw [past_cut]
    exact fun other before _ => apart other before event mem
  unfold counts
  rw [past_cut_append,passed,Bool.true_and,← here]
  congr 1
  unfold leaveLast
  split
  · rfl
  · next last found =>
    have among := mem_of_getLast? found
    rw [mem_filter] at among
    have less := apart last among.1 event mem
    have older : (upsert.survives (batch ++ rest) base).all (fun found =>
        decide (upsert.rowSeq found < upsert.seq event)) = true := by
      have all := among.2
      simp only [counts,Bool.and_eq_true] at all
      cases there : upsert.survives (batch ++ rest) base with
      | none => rfl
      | some found =>
        have passes := all.2
        rw [there,Option.all_some,decide_eq_true_eq] at passes
        rw [Option.all_some,decide_eq_true_eq]
        exact lt_trans passes less
    rw [older]
    unfold leave
    split
    · rfl
    · simp [(lawful last among.1).make_seq,less]

end Cuts

section Runs
variable {wanted : κ} {batches : List (List β)}

lemma foldl_turn (base : Option τ) (increasing : upsert.Increasing batches.flatten)
    (lawful : ∀ event ∈ batches.flatten, upsert.Lawful event) :
    batches.foldl (upsert.turn wanted) base =
      (batches.map fun batch => batch.filter (upsert.counts batches.flatten base wanted)).foldl upsert.leaveLast
        (upsert.survives batches.flatten base) := by
  induction batches generalizing base with
  | nil => exact (survives_of_past fun _ => rfl).symm
  | cons batch rest ih =>
    obtain ⟨now,later,_⟩ := pairwise_append.mp increasing
    obtain ⟨here,same⟩ := @counts_append _ _ _ _ _ _ upsert batch wanted base _ increasing
      fun event mem => lawful event (mem_append_left _ mem)
    rw [foldl_cons,ih _ later fun event mem => lawful event (mem_append_right _ mem),
      turn_eq now,flatten_cons,map_cons,foldl_cons,here]
    congr 1
    apply map_congr_left
    intro other mem
    apply filter_congr
    intro event among
    exact (same event (mem_flatten_of_mem mem among)).symm

/-- Merging over what an event left shows of what was there before only what the event itself left
there. -/
def Layered (events : List β) : Prop :=
  ∀ last ∈ events, ∀ event ∈ events, ∀ one other, upsert.make last one = upsert.make last other →
    upsert.make last (some (upsert.make event other)) = upsert.make last other →
    upsert.make last (some (upsert.make event one)) = upsert.make last other

/-- The last event makes the same row over the first row as over what any event before it would
leave. -/
def Settles (upsert : Upsert κ σ β τ) (base : Option τ) (events : List β) : Prop :=
  ∀ earlier last, events = earlier ++ [last] → upsert.deletes last = false →
    ∀ event ∈ earlier, upsert.make last (upsert.leave event base) = upsert.make last base

variable {base : Option τ}

omit [DecidableEq κ] [LinearOrder σ] in
lemma leaveLast_concat : upsert.leaveLast base (group ++ [event]) = upsert.leave event base := by
  simp [leaveLast]

lemma flatten_singles (items : List α) : (items.map fun item => [item]).flatten = items := by
  induction items with
  | nil => rfl
  | cons item rest ih => simp [ih]

omit [DecidableEq κ] [LinearOrder σ] in
lemma foldl_leaveLast_nil (groups : List (List β)) (empty : groups.flatten = [])
    (base : Option τ) : groups.foldl upsert.leaveLast base = base := by
  induction groups generalizing base with
  | nil => rfl
  | cons group rest ih =>
    obtain ⟨rfl,empty⟩ := append_eq_nil_iff.mp empty
    exact ih empty base

omit [DecidableEq κ] [LinearOrder σ] in
lemma foldl_leaveLast (groups : List (List β)) {last : β}
    (layered : upsert.Layered (earlier ++ [last])) (whole : groups.flatten = earlier ++ [last])
    (settles : upsert.deletes last = false → ∀ event ∈ earlier,
      upsert.make last (upsert.leave event base) = upsert.make last base)
    (start : Option τ)
    (close : upsert.deletes last = false → upsert.make last start = upsert.make last base) :
    groups.foldl upsert.leaveLast start = upsert.leave last base := by
  induction groups generalizing earlier start with
  | nil => simp at whole
  | cons group rest ih =>
    rw [flatten_cons] at whole
    rw [foldl_cons]
    rcases eq_nil_or_concat rest.flatten with empty | ⟨later,final,some⟩
    · rw [empty,append_nil] at whole
      rw [foldl_leaveLast_nil rest empty,whole,leaveLast_concat]
      unfold leave
      cases removes : upsert.deletes last with
      | true => rfl
      | false => rw [close removes]
    · rw [concat_eq_append] at some
      rw [some,← append_assoc] at whole
      obtain ⟨rfl,same⟩ := append_inj' whole rfl
      obtain rfl : final = last := by simpa using same
      refine ih (fun one here other there => layered one ?_ other ?_) some
        (fun stays event mem => settles stays event (mem_append_right _ mem)) _
        (fun stays => ?_)
      · simp only [mem_append] at here ⊢
        tauto
      · simp only [mem_append] at there ⊢
        tauto
      · unfold leaveLast
        split
        · exact close stays
        · next event found =>
          have mem := mem_of_getLast? found
          have settled := settles stays event (mem_append_left _ mem)
          unfold leave at settled ⊢
          split
          · next removes => simpa [removes] using settled
          · next stays' =>
            rw [if_neg stays'] at settled
            exact layered final (by simp) event (by simp [mem]) start base (close stays) settled

lemma turns_agree_iff (increasing : upsert.Increasing events)
    (lawful : ∀ event ∈ events, upsert.Lawful event) (layered : upsert.Layered events) :
    (∀ batches : List (List β), batches.flatten = events → batches.foldl (upsert.turn wanted) base =
        (events.map fun event => [event]).foldl (upsert.turn wanted) base) ↔
      upsert.Settles (upsert.survives events base) (events.filter (upsert.counts events base wanted)) := by
  have turns (batches : List (List β)) (whole : batches.flatten = events) : batches.foldl (upsert.turn wanted) base =
        (batches.map fun batch => batch.filter (upsert.counts events base wanted)).foldl
          upsert.leaveLast (upsert.survives events base) := by
    subst whole
    exact foldl_turn base increasing lawful
  have single := flatten_singles events
  constructor
  · intro agree earlier last counted stays event mem
    obtain ⟨before,after,rfl⟩ := append_of_mem mem
    have whole := (turns [events] (by simp)).symm.trans (agree [events] (by simp))
    have split : events.filter (upsert.counts events base wanted) =
        (before ++ [event]) ++ (after ++ [last]) := by simp [counted]
    obtain ⟨one,other,rfl,first,second⟩ := filter_eq_append_iff.mp split
    have parts := (turns [one,other] (by simp)).symm.trans (agree [one,other] (by simp))
    have same := parts.trans whole.symm
    simp only [map_cons,map_nil,foldl_cons,foldl_nil,first,second,counted,leaveLast_concat] at same
    simpa [leave,stays] using same
  · intro settles batches whole
    rw [turns batches whole,turns _ single]
    have flat (batches : List (List β)) (whole : batches.flatten = events) :
        (batches.map fun batch => batch.filter (upsert.counts events base wanted)).flatten =
          events.filter (upsert.counts events base wanted) := by
      rw [← whole,filter_flatten]
    rcases eq_nil_or_concat (events.filter (upsert.counts events base wanted)) with
      empty | ⟨earlier,last,some⟩
    · rw [foldl_leaveLast_nil _ ((flat batches whole).trans empty),
        foldl_leaveLast_nil _ ((flat _ single).trans empty)]
    · rw [concat_eq_append] at some
      have among : ∀ event ∈ earlier ++ [last], event ∈ events := fun event mem => mem_of_mem_filter (some ▸ mem)
      have layered : upsert.Layered (earlier ++ [last]) := fun one here other there =>
        layered one (among one here) other (among other there)
      rw [foldl_leaveLast _ layered ((flat batches whole).trans some) (settles earlier last some) _ (fun _ => rfl),
        foldl_leaveLast _ layered ((flat _ single).trans some) (settles earlier last some) _ (fun _ => rfl)]

end Runs

section Tables
variable (upsert) in
def run (before : β → β → Bool) (batches : List (List β)) (table : List τ) : List τ :=
  batches.foldl (fun table batch => upsert.merge before batch table) table

lemma run_rows (decides : upsert.Decides before batches.flatten)
    (distinct : Distinct upsert.rowKey table) (increasing : upsert.Increasing batches.flatten)
    (lawful : ∀ event ∈ batches.flatten, upsert.Lawful event) :
    Distinct upsert.rowKey (upsert.run before batches table) ∧ ∀ wanted,
      row upsert.rowKey (upsert.run before batches table) wanted =
        batches.foldl (upsert.turn wanted) (row upsert.rowKey table wanted) := by
  unfold run
  induction batches generalizing table with
  | nil => exact ⟨distinct,fun _ => rfl⟩
  | cons batch rest ih =>
    obtain ⟨now,later,_⟩ := pairwise_append.mp increasing
    have lawful' := fun event mem => lawful event (mem_append_left _ mem)
    obtain ⟨distinct',rows⟩ := ih (fun one here other there => decides one
      (mem_append_right _ here) other (mem_append_right _ there))
      (merge_distinct distinct lawful') later fun event mem => lawful event (mem_append_right _ mem)
    refine ⟨distinct',fun wanted => ?_⟩
    rw [foldl_cons,foldl_cons,rows,row_merge_increasing distinct lawful' now
      fun one here other there => decides one (mem_append_left _ here) other (mem_append_left _ there)]

lemma run_perm_iff (decides : upsert.Decides before events) (distinct : Distinct upsert.rowKey table)
    (increasing : upsert.Increasing events) (lawful : ∀ event ∈ events, upsert.Lawful event)
    (layered : upsert.Layered events) :
    (∀ batches : List (List β), batches.flatten = events →
        (upsert.run before batches table).Perm (upsert.run before (events.map fun event => [event]) table)) ↔
    ∀ wanted, upsert.Settles (upsert.survives events (row upsert.rowKey table wanted))
        (events.filter (upsert.counts events (row upsert.rowKey table wanted) wanted)) := by
  have rows (batches : List (List β)) (whole : batches.flatten = events) :=
    run_rows (whole ▸ decides) distinct (whole ▸ increasing) (whole ▸ lawful)
  obtain ⟨singles,single⟩ := rows _ (flatten_singles events)
  constructor
  · intro agree wanted
    rw [← turns_agree_iff increasing lawful layered]
    intro batches whole
    obtain ⟨distinct',rows⟩ := rows batches whole
    rw [← rows,← single]
    exact distinct'.row_perm (agree batches whole) wanted
  · intro settles batches whole
    obtain ⟨distinct',rows⟩ := rows batches whole
    refine distinct'.perm singles fun wanted => ?_
    rw [rows,single]
    exact (turns_agree_iff increasing lawful layered).mpr (settles wanted) batches whole

end Tables
end Oxidant.Lib.Upsert
