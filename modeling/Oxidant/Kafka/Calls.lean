import Oxidant.Kafka.Source

/-! What each call of the source does to its offsets, whatever the broker answers. -/
namespace Oxidant.Kafka
open List hiding after range
open Lib Streaming Act

lemma parsePartition_toDigits (partition) : parsePartition (Nat.toDigits 10 partition.val) = some partition := by
  have all : (Nat.toDigits 10 partition.val).all Char.isDigit = true := by
    rw [all_eq_true]
    exact fun c mem => Nat.isDigit_of_mem_toDigits (by decide) (by decide) mem
  have sign : ∀ rest, Nat.toDigits 10 partition.val ≠ '+'::rest := by
    intro rest same
    rw [same,all_cons] at all
    simp at all
  unfold parsePartition
  split
  · next rest same => exact absurd same (sign rest)
  · simp [all,Nat.ofDigitChars_ten_toDigits]

lemma parse_display (tp) : parseTopicPartition tp.display = some tp := by
  obtain ⟨topic,partition⟩ := tp
  have solid : ∀ c ∈ (toString partition.val).toList.reverse, (c != '-') = true := by
    intro c mem
    have digit : c.isDigit = true := by
      rw [mem_reverse,Nat.toString_eq_ofList_toDigits,String.toList_ofList] at mem
      exact Nat.isDigit_of_mem_toDigits (by decide) (by decide) mem
    rw [bne_iff_ne]
    rintro rfl
    revert digit
    decide
  have chars : (TopicPartition.display ⟨topic,partition⟩).toList.reverse =
      (toString partition.val).toList.reverse ++ '-'::topic.toList.reverse := by
    simp [TopicPartition.display]
  unfold parseTopicPartition
  dsimp only
  rw [chars,dropWhile_append_of_pos solid,takeWhile_append_of_pos solid]
  simp [parsePartition_toDigits]

lemma display_inj {other : TopicPartition} (same : one.display = other.display) : one = other := by
  have := parse_display one
  rw [same,parse_display] at this
  exact (Option.some.inj this).symm

def Listed (options : KafkaOptions) (broker : Broker) (tp : TopicPartition) : Prop :=
  tp.topic ∈ options.topics ∧ ∃ found, broker.topics.find? (·.name == tp.topic) = some found ∧
    tp.partition ∈ found.partitions

def Quiet (tp : TopicPartition) (choices : List Choice) : Prop :=
  ∀ choice ∈ choices, ∀ arrival ∈ choice.arrivals, arrival.target ≠ some tp

section Growth
variable {broker : Broker}

lemma Listed.arrive (listed : Listed options broker tp) (arrival) : Listed options (broker.arrive arrival) tp := by
  obtain ⟨wanted,found,there,mem⟩ := listed
  refine ⟨wanted,?_⟩
  cases arrival with
  | record | marker => exact ⟨found,there,mem⟩
  | topic topic => exact ⟨found,by simp [Broker.arrive,there],mem⟩
  | partition name =>
    have named : ∀ topic, (if topic.name = name then Broker.addPartition topic else topic).name = topic.name := by
      intro topic
      unfold Broker.addPartition
      split
      · split <;> rfl
      · rfl
    refine ⟨if found.name = name then Broker.addPartition found else found,?_,?_⟩
    · change (List.map _ broker.topics).find? _ = _
      rw [find?_map]
      have same : ((fun topic : Topic => topic.name == tp.topic) ∘ fun topic =>
          if topic.name = name then Broker.addPartition topic else topic) =
          fun topic => topic.name == tp.topic := by
        funext topic
        simp [named]
      rw [same,there]
      rfl
    · unfold Broker.addPartition
      split
      · split
        · exact mem_append_left _ mem
        · exact mem
      · exact mem

lemma arrive_log :
    ((broker.arrive arrival).log tp).earliest = (broker.log tp).earliest ∧
    (arrival.target ≠ some tp → ((broker.arrive arrival).log tp).latest = (broker.log tp).latest) := by
  have extends_ (other : TopicPartition) (records : List Record) :
      ((broker.extend other records).log tp).earliest = (broker.log tp).earliest ∧
      (other ≠ tp → ((broker.extend other records).log tp).latest = (broker.log tp).latest) := by
    unfold Broker.extend
    dsimp only
    split
    · next same => exact ⟨by rw [same],fun apart => absurd same.symm apart⟩
    · exact ⟨rfl,fun _ => rfl⟩
  cases arrival with
  | record other key value timestampMs =>
    exact ⟨(extends_ other _).1,fun apart => (extends_ other _).2 fun same => apart (by rw [same]; rfl)⟩
  | marker other =>
    exact ⟨(extends_ other _).1,fun apart => (extends_ other _).2 fun same => apart (by rw [same]; rfl)⟩
  | partition | topic => exact ⟨rfl,fun _ => rfl⟩

end Growth

structure Passed (options : KafkaOptions) (wire final : Wire) : Prop where
  choices : final.choices <:+ wire.choices
  first : ∀ (tp : TopicPartition) (o : Int),
    wire.broker.firstAssigned[tp]? = some o → final.broker.firstAssigned[tp]? = some o
  earliest : ∀ tp, (final.broker.log tp).earliest = (wire.broker.log tp).earliest
  latest : ∀ tp, Quiet tp wire.choices →
    (final.broker.log tp).latest = (wire.broker.log tp).latest
  listed : ∀ tp, Listed options wire.broker tp → Listed options final.broker tp

namespace Passed
lemma refl (wire) : Passed options wire wire :=
  ⟨suffix_refl _,fun _ _ => id,fun _ => rfl,fun _ _ => rfl,fun _ => id⟩

lemma quiet (passed : Passed options wire between) (quiet : Quiet tp wire.choices) : Quiet tp between.choices :=
  fun choice mem => quiet choice (passed.choices.subset mem)

lemma trans (one : Passed options wire between) (other : Passed options between final) :
    Passed options wire final where
  choices := other.choices.trans one.choices
  first tp o there := other.first tp o (one.first tp o there)
  earliest tp := (other.earliest tp).trans (one.earliest tp)
  latest tp quiet := (other.latest tp (one.quiet quiet)).trans (one.latest tp quiet)
  listed tp there := other.listed tp (one.listed tp there)

lemma arrivals (options : KafkaOptions) (wire) :
    let broker := wire.broker.arriveAll (wire.choices.headD Broker.lost).arrivals
    Passed options wire ⟨wire.choices.tail,broker⟩ ∧ broker.firstAssigned = wire.broker.firstAssigned := by
  obtain ⟨choices,broker⟩ := wire
  have all (arrivals : List Arrival) (broker : Broker) :
      (broker.arriveAll arrivals).firstAssigned = broker.firstAssigned ∧
      (∀ tp, ((broker.arriveAll arrivals).log tp).earliest = (broker.log tp).earliest) ∧
      (∀ tp, (∀ arrival ∈ arrivals, arrival.target ≠ some tp) →
        ((broker.arriveAll arrivals).log tp).latest = (broker.log tp).latest) ∧
      ∀ tp, Listed options broker tp → Listed options (broker.arriveAll arrivals) tp := by
    induction arrivals generalizing broker with
    | nil => exact ⟨rfl,fun _ => rfl,fun _ _ => rfl,fun _ => id⟩
    | cons arrival rest ih =>
      obtain ⟨first,earliest,latest,listed⟩ := ih (broker.arrive arrival)
      refine ⟨first.trans ((by cases arrival <;> rfl)),fun tp =>
        (earliest tp).trans (arrive_log).1,fun tp quiet => ?_,fun tp there =>
        listed tp (there.arrive arrival)⟩
      exact (latest tp fun other mem => quiet other (mem_cons_of_mem _ mem)).trans
        ((arrive_log).2 (quiet arrival mem_cons_self))
  obtain ⟨first,earliest,latest,listed⟩ := all (choices.headD Broker.lost).arrivals broker
  refine ⟨⟨tail_suffix _,fun tp o there => by rw [first]; exact there,earliest,
    fun tp quiet => latest tp ?_,listed⟩,first⟩
  cases choices with
  | nil => exact fun _ none => by cases none
  | cons choice rest => exact quiet choice mem_cons_self

end Passed

lemma getElem?_insert (map : PartitionMap β) (tp other value) :
    (map.insert tp value)[other]? = if tp = other then some value else map[other]? := by
  rw [Std.ExtTreeMap.getElem?_insert]
  simp only [Std.LawfulEqCmp.compare_eq_iff_eq]

lemma getElem?_insertIfNew (map : PartitionMap β) (tp other value) :
    (map.insertIfNew tp value)[other]? = if tp = other then some (map[other]?.getD value) else map[other]? := by
  rw [Std.ExtTreeMap.getElem?_insertIfNew]
  simp only [Std.LawfulEqCmp.compare_eq_iff_eq,Std.ExtTreeMap.mem_iff_isSome_getElem?]
  by_cases same : tp = other
  · subst same
    cases map[tp]? <;> simp
  · simp [same]

section Requests
lemma request_ensures (options request) (rest : Answer request → Method α)
    (asks : ∀ tp offset, request ≠ .noteStart tp offset)
    (answered : ∀ choice final, Passed options wire final → final.broker.firstAssigned = wire.broker.firstAssigned →
      (rest (Broker.answer choice final.broker request).1).Ensures Broker.reply Anywhere post self final) :
    (Act.request request >>= rest).Ensures Broker.reply Anywhere post self wire := by
  refine ⟨trivial,fun _ => ?_⟩
  obtain ⟨passed,same⟩ := Passed.arrivals options wire
  have done := answered (wire.choices.headD Broker.lost) _ passed same
  cases request with
  | noteStart tp offset => exact absurd rfl (asks tp offset)
  | _ => exact done

lemma noteStart_ensures (options : KafkaOptions) (rest : Unit → Method α)
    (noted : ∀ final, Passed options wire final →
        final.broker.firstAssigned = wire.broker.firstAssigned.insertIfNew tp offset →
        (rest ()).Ensures Broker.reply Anywhere post self final) :
    (Act.request (.noteStart tp offset) >>= rest).Ensures Broker.reply Anywhere post self wire := by
  refine ⟨trivial,fun _ => noted _ ?_ ?_⟩
  · obtain ⟨passed,same⟩ := Passed.arrivals options wire
    refine {passed with first := fun other o there => ?_}
    have there := passed.first other o there
    change (Std.ExtTreeMap.insertIfNew _ tp offset)[other]? = some o
    rw [getElem?_insertIfNew]
    split
    · exact congrArg (fun found => some (found.getD offset)) there
    · exact there
  · rw [← (Passed.arrivals options wire).2]
    rfl

end Requests

def Settled (options : KafkaOptions) (wire : Wire) (tp : TopicPartition) (o : Int) : Prop :=
  match KafkaSource.startingAt options tp with
  | .inl explicit => explicit = o
  | .inr .earliest => (wire.broker.log tp).earliest = o
  | .inr .latest => (wire.broker.log tp).latest = o ∧ Quiet tp wire.choices

lemma Settled.passed (settled : Settled options wire tp o) (passed : Passed options wire final) :
    Settled options final tp o := by
  unfold Settled at settled ⊢
  split at settled
  · exact settled
  · rw [passed.earliest]
    exact settled
  · rw [passed.latest tp settled.2]
    exact ⟨settled.1,passed.quiet settled.2⟩

structure Seeds (options : KafkaOptions) (source : KafkaSource) (wire : Wire) (after : KafkaSource)
    (final : Wire) : Prop extends Passed options wire final where
  kept : ∀ (tp : TopicPartition) (o : Int),
    source.offsets[tp]? = some o → after.offsets[tp]? = some o
  seeded : ∀ (tp : TopicPartition) (start : Int), after.offsets[tp]? = some start →
    source.offsets[tp]? = none →
    (wire.broker.firstAssigned[tp]? = none → final.broker.firstAssigned[tp]? = some start) ∧
    ∀ o, wire.broker.firstAssigned[tp]? = some o → source.assigned = false →
      Settled options wire tp o → start = o
  noted : ∀ (tp : TopicPartition) (o : Int), final.broker.firstAssigned[tp]? = some o →
    wire.broker.firstAssigned[tp]? = some o ∨
      after.offsets[tp]? = some o ∧ Listed options final.broker tp
  clients : (∀ tp ∈ source.partitionClients, source.offsets[tp]? ≠ none) →
    ∀ tp ∈ after.partitionClients, after.offsets[tp]? ≠ none

namespace Seeds
lemma of_passed (passed : Passed options wire final)
    (first : final.broker.firstAssigned = wire.broker.firstAssigned)
    (offsets : after.offsets = self.offsets)
    (clients : after.partitionClients = self.partitionClients) :
    Seeds options self wire after final where
  toPassed := passed
  kept tp o there := by rw [offsets]; exact there
  seeded tp start there none := by
    rw [offsets,none] at there
    cases there
  noted tp o there := .inl (first ▸ there)
  clients all tp mem := by
    rw [clients] at mem
    rw [offsets]
    exact all tp mem

lemma refl (self wire) : Seeds options self wire self wire :=
  of_passed (.refl wire) rfl rfl rfl

lemma trans (one : Seeds options self wire middle between)
    (other : Seeds options middle between after final) (same : middle.assigned = self.assigned) :
    Seeds options self wire after final where
  toPassed := one.toPassed.trans other.toPassed
  kept tp o there := other.kept tp o (one.kept tp o there)
  seeded tp start there none := by
    cases found : middle.offsets[tp]? with
    | some offset =>
      have equal : offset = start := Option.some.inj ((other.kept tp offset found).symm.trans there)
      subst equal
      obtain ⟨first,again⟩ := one.seeded tp offset found none
      exact ⟨fun unknown => other.first tp offset (first unknown),again⟩
    | none =>
      obtain ⟨first,again⟩ := other.seeded tp start there found
      constructor
      · intro unknown
        apply first
        cases noted : between.broker.firstAssigned[tp]? with
        | none => rfl
        | some o =>
          rcases one.noted tp o noted with known | ⟨known,_⟩
          · rw [unknown] at known
            cases known
          · rw [found] at known
            cases known
      · intro o known assigned settled
        exact again o (one.first tp o known) (same.trans assigned) (settled.passed one.toPassed)
  noted tp o there := by
    rcases other.noted tp o there with known | new
    · rcases one.noted tp o known with known | ⟨seeded,listed⟩
      · exact .inl known
      · exact .inr ⟨other.kept tp o seeded,other.listed tp listed⟩
    · exact .inr new
  clients all := other.clients (one.clients all)

lemma seed (passed : Passed options wire final)
    (first : final.broker.firstAssigned = wire.broker.firstAssigned.insertIfNew tp start)
    (none : self.offsets[tp]? = none) (offsets : after.offsets = self.offsets.insert tp start)
    (clients : after.partitionClients = self.partitionClients.insert tp ())
    (listed : Listed options final.broker tp)
    (settles : self.assigned = false → ∀ o, Settled options wire tp o → start = o) :
    Seeds options self wire after final where
  toPassed := passed
  kept other o there := by
    rw [offsets,getElem?_insert,if_neg]
    · exact there
    · rintro rfl
      rw [none] at there
      cases there
  seeded other found there absent := by
    rw [offsets,getElem?_insert] at there
    split at there
    · next same =>
      subst same
      cases there
      refine ⟨fun unknown => ?_,fun o _ assigned settled => settles assigned o settled⟩
      rw [first,getElem?_insertIfNew,if_pos rfl,unknown]
      rfl
    · rw [absent] at there
      cases there
  noted other o there := by
    rw [first,getElem?_insertIfNew] at there
    split at there
    · next same =>
      subst same
      cases known : wire.broker.firstAssigned[tp]? with
      | some _ =>
        rw [known] at there
        exact .inl there
      | none =>
        rw [known] at there
        cases there
        exact .inr ⟨by rw [offsets,getElem?_insert,if_pos rfl]; rfl,listed⟩
    · exact .inl there
  clients all other mem := by
    rw [offsets,getElem?_insert]
    split
    · exact Option.some_ne_none _
    · next apart =>
      rw [clients,Std.ExtTreeMap.mem_insert,Std.LawfulEqCmp.compare_eq_iff_eq] at mem
      exact all other (mem.resolve_left apart)

end Seeds

section Assigning
open KafkaSource

lemma getOffset_ensures :
    (getOffset tp place what).Ensures Broker.reply Anywhere (fun result after final =>
        after = self ∧ Passed options wire final ∧ final.broker.firstAssigned = wire.broker.firstAssigned ∧
        ∀ offset, result = .ok offset → final.broker.getOffset tp place = offset) self wire := by
  refine request_ensures options _ _ nofun fun choice final passed same => ?_
  dsimp only [Broker.answer,Broker.refuse]
  cases choice.error with
  | some e => exact ⟨rfl,passed,same,nofun⟩
  | none => exact ⟨rfl,passed,same,fun _ same => by cases same; rfl⟩

lemma resolveStartOffset_ensures (tp : TopicPartition) (firstAssignment : Bool) :
    (resolveStartOffset options tp firstAssignment).Ensures Broker.reply Anywhere (fun result after final =>
        after = self ∧ Passed options wire final ∧ final.broker.firstAssigned = wire.broker.firstAssigned ∧
        ∀ start, result = .ok start → firstAssignment = true → ∀ o, Settled options wire tp o → start = o)
      self wire := by
  unfold resolveStartOffset
  split
  · next later =>
    apply ensures_mono (getOffset_ensures)
    rintro result after final ⟨same,passed,first,_⟩
    refine ⟨same,passed,first,fun _ _ now => ?_⟩
    rw [now] at later
    cases later
  · cases place : startingAt options tp with
    | inl explicit =>
      refine ⟨rfl,.refl wire,rfl,fun start done _ o settled => ?_⟩
      cases done
      unfold Settled at settled
      rw [place] at settled
      exact settled
    | inr at_ =>
      apply ensures_mono (getOffset_ensures)
      rintro result after final ⟨same,passed,first,answered⟩
      refine ⟨same,passed,first,fun start done _ o settled => ?_⟩
      have settled := settled.passed passed
      rw [← answered start done]
      unfold Settled at settled
      rw [place] at settled
      cases at_ with
      | earliest => exact settled
      | latest => exact settled.1

lemma assignPartition_ensures (listed : Listed options wire.broker tp)
    (all : ∀ tp ∈ self.partitionClients, self.offsets[tp]? ≠ none) :
    (assignPartition options (!self.assigned) tp).Ensures Broker.reply Anywhere (fun result after final =>
        Seeds options self wire after final ∧ after.assigned = self.assigned ∧
        ∀ done, result = .ok done → after.offsets[tp]? ≠ none) self wire := by
  unfold assignPartition
  rw [ensures_get_bind]
  split
  · next known => exact ⟨.refl self wire,rfl,fun _ _ => all tp (Std.ExtTreeMap.contains_iff_mem.mp known)⟩
  refine request_ensures options _ _ nofun fun choice between passed same => ?_
  dsimp only [Broker.answer,Broker.refuse]
  have unseeded : Seeds options self wire self between := .of_passed passed same rfl rfl
  cases choice.error with
  | some e => exact ⟨unseeded,rfl,nofun⟩
  | none =>
    dsimp only
    split
    · next absent =>
      have absent : self.offsets[tp]? = none := by
        rw [Bool.not_eq_true',← Bool.not_eq_true,Std.ExtTreeMap.contains_iff_mem] at absent
        exact Std.ExtTreeMap.getElem?_eq_none absent
      apply ensures_then (resolveStartOffset_ensures tp (!self.assigned))
      rintro (e | start) after resolved ⟨rfl,passed',same',settles⟩
      · exact ⟨.of_passed (passed.trans passed') (same'.trans same) rfl rfl,rfl,nofun⟩
      refine noteStart_ensures options _ fun final passed'' noted => ?_
      have whole := (passed.trans passed').trans passed''
      refine ⟨.seed whole (by rw [noted,same',same]) absent rfl rfl (whole.listed tp listed)
        fun assigned o settled => ?_,rfl,fun _ _ => ?_⟩
      · exact settles start rfl (by rw [assigned]; rfl) o (settled.passed passed)
      · rw [getElem?_insert,if_pos rfl]
        exact Option.some_ne_none _
    · next present =>
      have present : self.offsets[tp]? ≠ none := by
        rw [Bool.not_eq_true',Bool.not_eq_false,Std.ExtTreeMap.contains_iff_mem] at present
        exact Option.isSome_iff_ne_none.mp (Std.ExtTreeMap.mem_iff_isSome_getElem?.mp present)
      refine ⟨{unseeded with clients := fun all other mem => ?_},rfl,fun _ _ => present⟩
      rw [Std.ExtTreeMap.mem_insert,Std.LawfulEqCmp.compare_eq_iff_eq] at mem
      rcases mem with rfl | mem
      · exact present
      · exact all other mem

lemma assignPartitions_ensures (listed : ∀ tp ∈ tps, Listed options wire.broker tp)
    (all : ∀ tp ∈ self.partitionClients, self.offsets[tp]? ≠ none) :
    (assignPartitions options (!self.assigned) tps).Ensures Broker.reply Anywhere (fun result after final =>
        Seeds options self wire after final ∧ after.assigned = self.assigned ∧
        ∀ done, result = .ok done → ∀ tp ∈ tps, after.offsets[tp]? ≠ none) self wire := by
  induction tps generalizing self wire with
  | nil => exact ⟨.refl self wire,rfl,nofun⟩
  | cons tp rest ih =>
    apply ensures_then (assignPartition_ensures (listed tp mem_cons_self) all)
    rintro (e | _) middle between ⟨seeds,same,placed⟩
    · exact ⟨seeds,same,nofun⟩
    rw [← same]
    refine ensures_mono (ih (fun other mem => seeds.listed other
      (listed other (mem_cons_of_mem _ mem))) (seeds.clients all)) ?_
    rintro result after final ⟨more,same',others⟩
    refine ⟨seeds.trans more same,same',fun done ok other mem => ?_⟩
    rcases mem_cons.mp mem with rfl | later
    · obtain ⟨o,there⟩ := Option.ne_none_iff_exists'.mp (placed () rfl)
      rw [more.kept other o there]
      exact Option.some_ne_none o
    · exact others done ok other later

lemma assignTopics_ensures
    (listed : ∀ want ∈ wants, ∀ found, topics.find? (·.name == want) = some found →
          ∀ partition ∈ found.partitions, Listed options wire.broker ⟨want,partition⟩)
    (all : ∀ tp ∈ self.partitionClients, self.offsets[tp]? ≠ none) :
    (assignTopics options (!self.assigned) topics wants).Ensures Broker.reply Anywhere (fun result after final =>
        Seeds options self wire after final ∧ after.assigned = self.assigned ∧
        ∀ done, result = .ok done →
          ∀ want ∈ wants, ∀ found, topics.find? (·.name == want) = some found →
              ∀ partition ∈ found.partitions, after.offsets[TopicPartition.mk want partition]? ≠ none)
      self wire := by
  induction wants generalizing self wire with
  | nil => exact ⟨.refl self wire,rfl,nofun⟩
  | cons want rest ih =>
    unfold assignTopics
    cases found : topics.find? (·.name == want) with
    | none => exact ⟨.refl self wire,rfl,nofun⟩
    | some topic =>
      have here := listed want mem_cons_self topic found
      refine ensures_then (assignPartitions_ensures (fun tp mem => ?_) all) ?_
      · obtain ⟨partition,among,rfl⟩ := mem_map.mp mem
        exact here partition among
      rintro (e | _) middle between ⟨seeds,same,placed⟩
      · exact ⟨seeds,same,nofun⟩
      rw [← same]
      refine ensures_mono (ih (fun other mem topic there partition among =>
        seeds.listed _ (listed other (mem_cons_of_mem _ mem) topic there partition among))
        (seeds.clients all)) ?_
      rintro result after final ⟨more,same',others⟩
      refine ⟨seeds.trans more same,same',fun done ok other mem => ?_⟩
      rcases mem_cons.mp mem with rfl | later
      · intro again there partition among
        cases found.symm.trans there
        obtain ⟨o,there⟩ := Option.ne_none_iff_exists'.mp (placed () rfl ⟨other,partition⟩ (mem_map_of_mem among))
        rw [more.kept _ o there]
        exact Option.some_ne_none o
      · exact others done ok other later

/-- A source that counts as assigned has an offset for every partition listed before. -/
structure Assigns (options : KafkaOptions) (source : KafkaSource) (wire : Wire)
    (after : KafkaSource) (final : Wire) : Prop extends Seeds options source wire after final where
  stays : source.assigned = true → after.assigned = true
  complete : after.assigned = true → source.assigned = true ∨
    ∀ tp, Listed options wire.broker tp → after.offsets[tp]? ≠ none

lemma connectClient_ensures :
    (connectClient options).Ensures Broker.reply Anywhere
      (fun _ after final => Seeds options self wire after final ∧ after.assigned = self.assigned) self wire := by
  unfold connectClient
  rw [ensures_get_bind]
  split
  · exact ⟨.refl self wire,rfl⟩
  · refine request_ensures options _ _ nofun fun choice final passed same => ?_
    dsimp only [Broker.answer,Broker.refuse]
    cases choice.error <;> exact ⟨.of_passed passed same rfl rfl,rfl⟩

lemma assign_ensures (all : ∀ tp ∈ self.partitionClients, self.offsets[tp]? ≠ none) :
    (assign options).Ensures Broker.reply Anywhere (fun _ after final => Assigns options self wire after final)
      self wire := by
  unfold assign
  rw [ensures_get_bind]
  refine request_ensures options _ _ nofun fun choice between passed same => ?_
  have unseeded : Seeds options self wire self between := .of_passed passed same rfl rfl
  split
  · exact ⟨unseeded,id,.inl⟩
  apply ensures_then connectClient_ensures
  rintro (e | _) middle connected ⟨seeds,assigned⟩
  · exact ⟨unseeded.trans seeds rfl,fun is => assigned.trans is,fun is => .inl (assigned ▸ is)⟩
  have seeds := unseeded.trans seeds rfl
  refine request_ensures options _ _ nofun fun choice answered passed same => ?_
  have listing : Seeds options middle connected middle answered := .of_passed passed same rfl rfl
  have seeds := seeds.trans listing assigned
  dsimp only [Broker.answer,Broker.refuse]
  cases choice.error with
  | some e => exact ⟨seeds,fun is => assigned.trans is,fun is => .inl (assigned ▸ is)⟩
  | none =>
    rw [ensures_bind,← assigned]
    refine ensures_mono (assignTopics_ensures (fun want mem found there partition among => ⟨mem,found,there,among⟩)
      (seeds.clients all)) ?_
    rintro (e | _) after final ⟨more,assigned',placed⟩
    · have whole := seeds.trans more assigned
      exact ⟨whole,fun is => (assigned'.trans assigned).trans is,fun is => .inl ((assigned'.trans assigned) ▸ is)⟩
    · have whole := seeds.trans more assigned
      refine ⟨{whole with},fun _ => rfl,fun _ => .inr fun tp listed => ?_⟩
      obtain ⟨wanted,found,there,mem⟩ := seeds.listed tp listed
      exact placed () rfl tp.topic wanted found there tp.partition mem

end Assigning

section Maps

private lemma find?_toList {order : κ → κ → Ordering} [Std.TransCmp order] [Std.LawfulEqCmp order]
    [DecidableEq κ] (map : Std.ExtTreeMap κ β order) (key) :
    (map.toList.find? fun entry : κ × β => decide (entry.1 = key)).map Prod.snd = map[key]? := by
  cases found : map.toList.find? fun entry : κ × β => decide (entry.1 = key) with
  | some entry =>
    have same : decide (entry.1 = key) = true :=
      @List.find?_some _ (fun entry : κ × β => decide (entry.1 = key)) _ _ found
    have there := Std.ExtTreeMap.mem_toList_iff_getElem?_eq_some.mp (mem_of_find?_eq_some found)
    rw [of_decide_eq_true same] at there
    exact there.symm
  | none =>
    rw [find?_eq_none] at found
    cases there : map[key]? with
    | none => rfl
    | some value =>
      have mem := Std.ExtTreeMap.mem_toList_iff_getElem?_eq_some.mpr there
      exact absurd (decide_eq_true rfl) (found _ mem)

private lemma toList_distinct {order : κ → κ → Ordering} [Std.TransCmp order]
    (map : Std.ExtTreeMap κ β order) : map.toList.Pairwise fun one other => one.1 ≠ other.1 :=
  Std.ExtTreeMap.distinct_keys_toList.imp fun apart same => apart (by rw [same]; exact Std.ReflCmp.compare_self)

def Named (entries : BTreeMap Int) : Prop := ∀ key ∈ entries, ∃ tp : TopicPartition, key = tp.display

lemma display_getElem?_insert (entries : BTreeMap Int) (tp other : TopicPartition) (value) :
    (entries.insert tp.display value)[other.display]? =
      if tp = other then some value else entries[other.display]? := by
  rw [Std.ExtTreeMap.getElem?_insert]
  simp only [Std.LawfulEqCmp.compare_eq_iff_eq]
  by_cases same : tp = other
  · rw [if_pos (by rw [same]),if_pos same]
  · rw [if_neg fun equal => same (display_inj equal),if_neg same]

lemma Named.insert (named : Named entries) (tp : TopicPartition) (value) :
    Named (entries.insert tp.display value) := by
  intro key mem
  rw [Std.ExtTreeMap.mem_insert,Std.LawfulEqCmp.compare_eq_iff_eq] at mem
  rcases mem with rfl | mem
  · exact ⟨tp,rfl⟩
  · exact named key mem

lemma putOffsets_fold (tp : TopicPartition) (list : List (String × Int)) (offsets : PartitionMap Int)
    (distinct : list.Pairwise fun one other => one.1 ≠ other.1)
    (names : ∀ entry ∈ list, ∃ tp : TopicPartition, entry.1 = tp.display) :
    (list.foldl (fun offsets (key,offset) => match parseTopicPartition key with
      | none => offsets
      | some tp => offsets.insert tp offset) offsets)[tp]? =
        ((list.find? (·.1 = tp.display)).map Prod.snd).or offsets[tp]? := by
  induction list generalizing offsets with
  | nil => rfl
  | cons entry rest ih =>
    obtain ⟨key,value⟩ := entry
    obtain ⟨own,rfl⟩ := names _ mem_cons_self
    obtain ⟨apart,distinct⟩ := pairwise_cons.mp distinct
    rw [foldl_cons,ih _ distinct fun entry mem => names entry (mem_cons_of_mem _ mem)]
    dsimp only
    rw [parse_display]
    rw [getElem?_insert,find?_cons]
    by_cases same : own = tp
    · subst same
      have none : rest.find? (·.1 = own.display) = none := by
        rw [find?_eq_none]
        intro entry mem equal
        exact apart entry mem (of_decide_eq_true equal).symm
      simp [none]
    · have apart := decide_eq_false fun equal => same (display_inj equal)
      simp [same,apart]

lemma putOffsets_getElem? {entries : BTreeMap Int} (named : Named entries) (offsets) (tp : TopicPartition) :
    (KafkaSource.putOffsets entries offsets)[tp]? = entries[tp.display]?.or offsets[tp]? := by
  refine (putOffsets_fold tp entries.toList offsets (toList_distinct entries) fun entry mem => ?_).trans ?_
  · exact named entry.1 (Std.ExtTreeMap.mem_iff_isSome_getElem?.mpr
      (by rw [Std.ExtTreeMap.mem_toList_iff_getElem?_eq_some.mp mem]; rfl))
  · rw [find?_toList]

lemma committedOffsets_fold (list : List (TopicPartition × Int)) (entries : BTreeMap Int) (named : Named entries)
    (distinct : list.Pairwise fun one other => one.1 ≠ other.1) :
    let filled := list.foldl (fun entries (tp,offset) => entries.insert tp.display offset) entries
    Named filled ∧ ∀ tp : TopicPartition, filled[tp.display]? =
      ((list.find? (·.1 = tp)).map Prod.snd).or entries[tp.display]? := by
  induction list generalizing entries with
  | nil => exact ⟨named,fun _ => rfl⟩
  | cons entry rest ih =>
    obtain ⟨own,value⟩ := entry
    obtain ⟨apart,distinct⟩ := pairwise_cons.mp distinct
    obtain ⟨named,reads⟩ := ih _ (named.insert own value) distinct
    refine ⟨named,fun tp => ?_⟩
    apply (reads tp).trans
    rw [display_getElem?_insert,find?_cons]
    by_cases same : own = tp
    · subst same
      have none : rest.find? (·.1 = own) = none := by
        rw [find?_eq_none]
        intro entry mem equal
        exact apart entry mem (of_decide_eq_true equal).symm
      simp [none]
    · simp [same]

lemma committedOffsets_entries (self : KafkaSource) :
    Named self.committedOffsets.entries ∧
    ∀ tp : TopicPartition, self.committedOffsets.entries[tp.display]? = self.offsets[tp]? := by
  obtain ⟨named,reads⟩ :=
    committedOffsets_fold self.offsets.toList ∅ (fun _ none => by simp at none) (toList_distinct self.offsets)
  refine ⟨named,fun tp => (reads tp).trans ?_⟩
  rw [find?_toList]
  simp

end Maps

/-- The names the positions are committed under are read back as the partitions they stand for,
over whatever positions the source had. -/
theorem committed_offsets_restored (options : KafkaOptions) (self other : KafkaSource) (tp : TopicPartition) :
    (other.restoreOffsets options self.committedOffsets).offsets[tp]? = self.offsets[tp]?.or other.offsets[tp]? := by
  obtain ⟨named,reads⟩ := committedOffsets_entries self
  change (KafkaSource.putOffsets self.committedOffsets.entries other.offsets)[tp]? = _
  rw [putOffsets_getElem? named,reads]

def spanOf (tp : TopicPartition) (range : BatchRange) : Option (Int × Int) :=
  range.end[tp.display]?.map fun stop => (range.start[tp.display]?.getD 0,stop)

structure PlannedFrom (source : KafkaSource) (range : BatchRange) : Prop where
  kafka : range.source = "kafka"
  named : Named range.end
  starts : ∀ tp start stop, spanOf tp range = some (start,stop) → source.offsets[tp]? = some start

section Batches
open KafkaSource

lemma addSlice_planned {budgets} (planned : PlannedFrom self range) (present : self.offsets[tp]? ≠ none) :
    PlannedFrom self (self.addSlice ends budgets range tp) := by
  unfold addSlice
  dsimp only
  split
  · exact planned
  · refine ⟨planned.kafka,planned.named.insert tp _,fun other start stop span => ?_⟩
    unfold spanOf at span
    rw [display_getElem?_insert,display_getElem?_insert] at span
    by_cases same : tp = other
    · subst same
      obtain ⟨o,there⟩ := Option.ne_none_iff_exists'.mp present
      simp only [if_true,Option.map_some,Option.getD_some,Option.some.injEq,Prod.mk.injEq] at span
      obtain ⟨rfl,_⟩ := span
      unfold slice
      rw [there]
      rfl
    · rw [if_neg same,if_neg same] at span
      exact planned.starts other start stop span

lemma latestOffsets_ensures (options tps) :
    (latestOffsets tps).Ensures Broker.reply Anywhere (fun _ after final =>
        after = self ∧ Passed options wire final ∧ final.broker.firstAssigned = wire.broker.firstAssigned)
      self wire := by
  induction tps generalizing wire with
  | nil => exact ⟨rfl,.refl wire,rfl⟩
  | cons tp rest ih =>
    apply ensures_then (getOffset_ensures)
    rintro (e | latest) after between ⟨rfl,passed,same,_⟩
    · exact ⟨rfl,passed,same⟩
    apply ensures_then ih
    rintro (e | ends) after final ⟨rfl,passed',same'⟩
    · exact ⟨rfl,passed.trans passed',same'.trans same⟩
    · exact ⟨rfl,passed.trans passed',same'.trans same⟩

lemma Assigns.unseeded (assigns : Assigns options self wire middle between)
    (passed : Passed options between final)
    (first : final.broker.firstAssigned = between.broker.firstAssigned)
    (offsets : after.offsets = middle.offsets)
    (clients : after.partitionClients = middle.partitionClients)
    (assigned : after.assigned = middle.assigned) : Assigns options self wire after final := by
  obtain ⟨seeds,stays,complete⟩ := assigns
  have whole : Seeds options self wire middle final :=
    { toPassed := seeds.toPassed.trans passed
      kept := seeds.kept
      seeded := fun tp start there none => by
        rw [first]
        exact seeds.seeded tp start there none
      noted := fun tp o there => by
        rw [first] at there
        exact (seeds.noted tp o there).imp id fun new => ⟨new.1,passed.listed tp new.2⟩
      clients := seeds.clients }
  refine ⟨?_,fun is => assigned.trans (stays is),fun is => ?_⟩
  · exact
      { toPassed := whole.toPassed
        kept := by rw [offsets]; exact whole.kept
        seeded := by rw [offsets]; exact whole.seeded
        noted := by rw [offsets]; exact whole.noted
        clients := by rw [offsets,clients]; exact whole.clients }
  · rw [offsets]
    exact complete (assigned ▸ is)

lemma planBatch_ensures (all : ∀ tp ∈ self.partitionClients, self.offsets[tp]? ≠ none) :
    (planBatch options).Ensures Broker.reply Anywhere (fun result after final =>
        Assigns options self wire after final ∧ ∀ range, result = .ok range → range = {} ∨ PlannedFrom after range)
      self wire := by
  apply ensures_then (assign_ensures all)
  rintro (e | _) middle between assigns
  · exact ⟨assigns,nofun⟩
  dsimp only
  rw [ensures_get_bind]
  split
  · exact ⟨assigns,fun _ same => by cases same; exact .inl rfl⟩
  apply ensures_then (latestOffsets_ensures options _)
  rintro (e | ends) after final ⟨rfl,passed,same⟩
  · exact ⟨assigns.unseeded passed same rfl rfl rfl,nofun⟩
  dsimp only
  generalize partitionBudgets options _ _ _ = budgets
  have planned : PlannedFrom after
      (after.partitionClients.keys.foldl (after.addSlice ends budgets) {source := "kafka"}) := by
    have present := fun tp mem => assigns.clients all tp (Std.ExtTreeMap.mem_keys.mp mem)
    have start : PlannedFrom after {source := "kafka"} :=
      ⟨rfl,fun _ none => by simp at none,fun _ _ _ none => by simp [spanOf] at none⟩
    revert present start
    generalize ({source := "kafka"} : BatchRange) = range
    generalize after.partitionClients.keys = tps
    intro present start
    induction tps generalizing range with
    | nil => exact start
    | cons tp rest ih =>
      exact ih _ (fun other mem => present other (mem_cons_of_mem _ mem))
        (addSlice_planned start (present tp mem_cons_self))
  split
  · refine ⟨assigns.unseeded passed same rfl rfl rfl,fun range done => ?_⟩
    cases done
    exact .inr ⟨planned.kafka,planned.named,planned.starts⟩
  · refine ⟨assigns.unseeded passed same rfl rfl rfl,fun range done => ?_⟩
    cases done
    exact .inr planned

lemma fetchPartition_ensures («end» next) :
    (fetchPartition tp «end» rounds next).Ensures Broker.reply Anywhere (fun _ after final =>
        after = self ∧ Passed options wire final ∧ final.broker.firstAssigned = wire.broker.firstAssigned)
      self wire := by
  induction rounds generalizing next wire with
  | zero => exact ⟨rfl,.refl wire,rfl⟩
  | succ rounds ih =>
    unfold fetchPartition
    split
    · exact ⟨rfl,.refl wire,rfl⟩
    refine request_ensures options _ _ nofun fun choice between passed same => ?_
    generalize (Broker.answer choice between.broker (.fetchRecords tp next)).1 = answer
    obtain e | fetched := answer
    · exact ⟨rfl,passed,same⟩
    dsimp only
    split
    · exact ⟨rfl,passed,same⟩
    apply ensures_then (ih _)
    rintro (e | rest) after final ⟨rfl,passed',same'⟩
    · exact ⟨rfl,passed.trans passed',same'.trans same⟩
    · exact ⟨rfl,passed.trans passed',same'.trans same⟩

lemma fetchAll_ensures (options plans) :
    (fetchAll plans).Ensures Broker.reply Anywhere (fun _ after final =>
        after = self ∧ Passed options wire final ∧ final.broker.firstAssigned = wire.broker.firstAssigned)
      self wire := by
  induction plans generalizing wire with
  | nil => exact ⟨rfl,.refl wire,rfl⟩
  | cons plan rest ih =>
    obtain ⟨tp,«from»,«end»⟩ := plan
    apply ensures_then (fetchPartition_ensures «end» «from»)
    rintro (e | records) after between ⟨rfl,passed,same⟩
    · exact ⟨rfl,passed,same⟩
    apply ensures_then ih
    rintro (e | more) after final ⟨rfl,passed',same'⟩
    · exact ⟨rfl,passed.trans passed',same'.trans same⟩
    · exact ⟨rfl,passed.trans passed',same'.trans same⟩

lemma pollRange_ensures (some : range.isEmpty = false) (kafka : range.source = "kafka")
    (all : ∀ tp ∈ self.partitionClients, self.offsets[tp]? ≠ none) :
    (pollRange options range).Ensures Broker.reply Anywhere (fun result after final => match result with
        | .error _ => Assigns options self wire after final
        | .ok _ => ∃ middle, Assigns options self wire middle final ∧ after = moveTo range middle)
      self wire := by
  unfold pollRange
  rw [if_neg (by simp [some]),if_neg (by simp [kafka]),if_pos kafka]
  rw [ensures_bind]
  apply ensures_then (assign_ensures all)
  rintro (e | _) middle between assigns
  · exact assigns
  rw [ensures_get_bind,ensures_bind,ensures_raise]
  cases middle.fetchPlans range with
  | error e => exact assigns
  | ok plans =>
    apply ensures_then (fetchAll_ensures options plans)
    rintro (e | records) after final ⟨rfl,passed,same⟩
    · exact assigns.unseeded passed same rfl rfl rfl
    have assigns := assigns.unseeded passed same rfl rfl rfl
    dsimp only
    rw [ensures_pure]
    dsimp only
    rw [ensures_bind,ensures_modify]
    dsimp only
    split <;> exact ⟨after,assigns,rfl⟩

lemma call_ensures (method : Method α) (input state)
    (holds : method.Ensures Broker.reply Anywhere post state.self ⟨input,state.broker⟩) :
    ∃ choices, post (call method input state).1 (call method input state).2.self
        ⟨choices,(call method input state).2.broker⟩ :=
  ⟨_,Prog.exec_ensures _ _ holds ()⟩

end Batches

end Oxidant.Kafka
