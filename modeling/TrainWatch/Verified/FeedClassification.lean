import TrainWatch.Library.JsonText
import TrainWatch.RefData.LoadSchedules

/-! # Lines of the feed by their record type

The extraction looks for marker texts in the whole line, its consumers index the record
type.  A marker text that stands in a name or in a text of some other record misleads the
extraction; where there is none the two agree.
-/

namespace TrainWatch.Verified.FeedClassification

open TrainWatch.RefData TrainWatch.Library
open TrainWatch.RefData.CreateSchedules TrainWatch.RefData.NetworkRailSchedule

/-! ## Record types -/

/-- A line with one record, of any type. -/
def SingleRecord (line : Json) : Prop := ∃ recordType record, line = .object [.mk recordType record]

/-- A schedule record with the field `schedule_location` in its segment. -/
def hasScheduleLocation (line : Json) : Bool :=
  (((line.get? "JsonScheduleV1").bind fun record => record.get? "schedule_segment").bind
    fun segment => segment.get? "schedule_location").isSome

/-- A tiploc record whose stanox is a text. -/
def hasStanoxText (line : Json) : Bool :=
  (((line.get? "TiplocV1").bind fun record => record.get? "stanox").bind asText).isSome

/-- The files have the lines of their record type, and its consumers find the key that they index.
    -/
def ClassifiedByType (feed : List Json) : Prop :=
  extractSchedulesAndTiplocs feed = (feed.filter hasScheduleLocation, feed.filter hasStanoxText) ∧
    (∀ line ∈ (extractSchedulesAndTiplocs feed).1, (line.get? "JsonScheduleV1").isSome) ∧
    ∀ line ∈ (extractSchedulesAndTiplocs feed).2, (line.get? "TiplocV1").isSome

/-! ## Marker texts -/

/-- The word is part of a name or a text in the line. -/
def Mentions (word : String) (line : Json) : Prop :=
  ∃ text ∈ line.strings, word.toList <:+: text.toList

instance (word : String) (line : Json) : Decidable (Mentions word line) :=
  inferInstanceAs (Decidable (∃ text ∈ line.strings, word.toList <:+: text.toList))

/-- Some member in the line has a text and a name that ends in the word. -/
def NamesText (word : String) (line : Json) : Prop :=
  ∃ member ∈ line.allMembers, Json.Names word.toList member

/-- The marker texts stand in the lines of their types only. -/
structure Unmistakable (line : Json) : Prop where
  schedule : hasScheduleLocation line = false → ¬ Mentions "schedule_location" line
  tiploc : hasScheduleLocation line = false → hasStanoxText line = false →
    ¬ (Mentions "TiplocV1" line ∧ NamesText "stanox" line)

section Markers

variable {line : Json}

theorem scheduleLocation_marker : Json.Marker "schedule_location".toList :=
  ⟨by decide, ⟨'_', by decide, by decide⟩, by decide⟩

theorem tiplocV1_marker :
    Json.Marker "TiplocV1".toList := ⟨by decide, ⟨'T', by decide, by decide⟩, by decide⟩

theorem stanox_word : Json.Word "stanox".toList := by decide

theorem inText_eq_true {part : String} :
    inText part line = true ↔ part.toList <:+: line.render := decide_eq_true_iff

theorem inText_scheduleLocation :
    inText "schedule_location" line = true ↔ Mentions "schedule_location" line :=
  inText_eq_true.trans (scheduleLocation_marker.infix_render_iff line)

theorem inText_tiplocV1 : inText "TiplocV1" line = true ↔ Mentions "TiplocV1" line :=
  inText_eq_true.trans (tiplocV1_marker.infix_render_iff line)

/-- The marker with the quotation marks is the end of a name in front of a text. -/
theorem inText_stanox : inText "stanox\":\"" line = true ↔ NamesText "stanox" line := by
  have parts : "stanox\":\"".toList = Json.nameMarker "stanox".toList := by decide
  rw [inText_eq_true, parts]
  exact Json.nameMarker_infix_render_iff stanox_word line

theorem hasScheduleLocation_eq_true : hasScheduleLocation line = true ↔ ∃ record segment locations,
    line.get? "JsonScheduleV1" = some record ∧ record.get? "schedule_segment" = some segment ∧
      segment.get? "schedule_location" = some locations := by
  rw [hasScheduleLocation, Option.isSome_iff_exists]
  simp only [Option.bind_eq_some_iff]
  constructor
  · rintro ⟨locations, segment, ⟨record, found, inRecord⟩, inSegment⟩
    exact ⟨record, segment, locations, found, inRecord, inSegment⟩
  · rintro ⟨record, segment, locations, found, inRecord, inSegment⟩
    exact ⟨locations, segment, ⟨record, found, inRecord⟩, inSegment⟩

theorem hasStanoxText_eq_true : hasStanoxText line = true ↔ ∃ record stanox,
    line.get? "TiplocV1" = some record ∧ record.get? "stanox" = some (.text stanox) := by
  rw [hasStanoxText, Option.isSome_iff_exists]
  simp only [Option.bind_eq_some_iff]
  constructor
  · rintro ⟨stanox, value, ⟨record, found, inRecord⟩, isText⟩
    cases value with
    | text value => exact ⟨record, value, found, inRecord⟩
    | _ => cases isText
  · rintro ⟨record, stanox, found, inRecord⟩
    exact ⟨stanox, .text stanox, ⟨record, found, inRecord⟩, rfl⟩

theorem mentions_of_hasScheduleLocation (isSchedule : hasScheduleLocation line = true) :
    Mentions "schedule_location" line := by
  obtain ⟨record, segment, locations, found, inRecord, inSegment⟩ :=
    hasScheduleLocation_eq_true.mp isSchedule
  have named : "schedule_location".toList <:+: Json.quoted "schedule_location" :=
    Json.infix_quoted (by decide)
  have inText := (named.trans (Json.infix_of_get? inSegment).1).trans
    (Json.infix_of_get? inRecord).2
  exact inText_scheduleLocation.mp (inText_eq_true.mpr (inText.trans (Json.infix_of_get? found).2))

theorem marked_of_hasStanoxText (isTiploc : hasStanoxText line = true) :
    Mentions "TiplocV1" line ∧ NamesText "stanox" line := by
  obtain ⟨record, stanox, found, inRecord⟩ := hasStanoxText_eq_true.mp isTiploc
  constructor
  · have named : "TiplocV1".toList <:+: Json.quoted "TiplocV1" := Json.infix_quoted (by decide)
    exact inText_tiplocV1.mp (inText_eq_true.mpr (named.trans (Json.infix_of_get? found).1))
  · obtain ⟨members, rfl, listed⟩ := Json.mem_of_get? inRecord
    obtain ⟨outer, rfl, listed'⟩ := Json.mem_of_get? found
    refine ⟨.mk "stanox" (.text stanox), ?_, _, _, rfl, List.suffix_refl _⟩
    exact Json.mem_allMembers_of_mem listed' (Json.mem_allMembersOfMembers listed)

theorem not_both (single : SingleRecord line) (isSchedule : hasScheduleLocation line = true) :
    hasStanoxText line = false := by
  obtain ⟨recordType, record, rfl⟩ := single
  obtain ⟨_, _, _, found, _⟩ := hasScheduleLocation_eq_true.mp isSchedule
  rw [← Bool.not_eq_true, hasStanoxText_eq_true]
  rintro ⟨_, _, found', _⟩
  obtain ⟨_, same, listed⟩ := Json.mem_of_get? found
  obtain ⟨_, same', listed'⟩ := Json.mem_of_get? found'
  cases same
  cases same'
  -- the only member would have both names
  have names : "JsonScheduleV1" = "TiplocV1" :=
    (congrArg Json.nameOf (List.mem_singleton.mp listed)).trans
    (congrArg Json.nameOf (List.mem_singleton.mp listed')).symm
  exact absurd names (by decide)

theorem inText_eq_hasScheduleLocation (unmistakable : Unmistakable line) :
    inText "schedule_location" line = hasScheduleLocation line := by
  cases isSchedule : hasScheduleLocation line with
  | true => exact inText_scheduleLocation.mpr (mentions_of_hasScheduleLocation isSchedule)
  | false =>
    rw [← Bool.not_eq_true, inText_scheduleLocation]
    exact unmistakable.schedule isSchedule

theorem tests_eq_hasStanoxText (single : SingleRecord line) (unmistakable : Unmistakable line) :
    (!inText "schedule_location" line && (inText "TiplocV1" line && inText "stanox\":\"" line)) =
    hasStanoxText line := by
  rw [inText_eq_hasScheduleLocation unmistakable]
  cases isSchedule : hasScheduleLocation line with
  | true => rw [not_both single isSchedule, Bool.not_true, Bool.false_and]
  | false =>
    rw [Bool.not_false, Bool.true_and]
    cases isTiploc : hasStanoxText line with
    | true =>
      obtain ⟨mentions, names⟩ := marked_of_hasStanoxText isTiploc
      rw [inText_tiplocV1.mpr mentions, inText_stanox.mpr names, Bool.true_and]
    | false =>
      rw [← Bool.not_eq_true, Bool.and_eq_true, inText_tiplocV1, inText_stanox]
      exact unmistakable.tiploc isSchedule isTiploc

end Markers

/-! ## The two files -/

section Files

variable {feed : List Json}

theorem extract_eq_filter (feed : List Json) : extractSchedulesAndTiplocs feed =
    (feed.filter fun line => inText "schedule_location" line,
      feed.filter fun line => !inText "schedule_location" line &&
        (inText "TiplocV1" line && inText "stanox\":\"" line)) := by
  induction feed with
  | nil => rfl
  | cons line feed inductionHypothesis =>
    rw [extractSchedulesAndTiplocs, inductionHypothesis]
    cases isSchedule : inText "schedule_location" line with
    | true => simp [isSchedule]
    | false =>
      cases isTiploc : inText "TiplocV1" line && inText "stanox\":\"" line with
      | true => simp [isSchedule, isTiploc]
      | false => simp [isSchedule, isTiploc]

theorem eq_of_filter_eq {α : Type} {p q : α → Bool} {as : List α} (same : as.filter p = as.filter q)
    {a : α}
    (member : a ∈ as) : p a = q a := by
  have both : a ∈ as.filter p ↔ a ∈ as.filter q := by rw [same]
  simp only [List.mem_filter, member, true_and] at both
  exact Bool.eq_iff_iff.mpr both

/-- The lines of single records are classified by their types if and only if no line but a schedule
    record with locations mentions them, and no other line but a tiploc record with a textual stanox
    mentions the type and has a name that ends in `stanox` with a text. -/
theorem feed_is_classified_iff (records : ∀ line ∈ feed, SingleRecord line) :
    ClassifiedByType feed ↔ ∀ line ∈ feed, Unmistakable line := by
  constructor
  · rintro ⟨files, _⟩ line member
    rw [extract_eq_filter, Prod.mk.injEq] at files
    -- two filters agree on a list only if they agree on each line
    have isSchedule := eq_of_filter_eq files.1 member
    have isTiploc := eq_of_filter_eq files.2 member
    refine ⟨fun noSchedule mentions => ?_, fun noSchedule noTiploc both => ?_⟩
    · rw [inText_scheduleLocation.mpr mentions, noSchedule] at isSchedule
      cases isSchedule
    · rw [noSchedule] at isSchedule
      rw [isSchedule, inText_tiplocV1.mpr both.1, inText_stanox.mpr both.2, noTiploc] at isTiploc
      cases isTiploc
  · intro unmistakable
    have files :
        extractSchedulesAndTiplocs feed = (feed.filter hasScheduleLocation,
        feed.filter hasStanoxText) := by
      rw [extract_eq_filter, Prod.mk.injEq]
      constructor
      · exact List.filter_congr fun line member =>
          inText_eq_hasScheduleLocation (unmistakable line member)
      · exact List.filter_congr fun line member =>
          tests_eq_hasStanoxText (records line member) (unmistakable line member)
    refine ⟨files, ?_, ?_⟩
    · intro line member
      rw [files] at member
      obtain ⟨record, _, _, found, _⟩ :=
        hasScheduleLocation_eq_true.mp (List.mem_filter.mp member).2
      exact Option.isSome_iff_exists.mpr ⟨record, found⟩
    · intro line member
      rw [files] at member
      obtain ⟨record, _, found, _⟩ := hasStanoxText_eq_true.mp (List.mem_filter.mp member).2
      exact Option.isSome_iff_exists.mpr ⟨record, found⟩

end Files

/-! ## A schedule, a tiploc, and an association that mentions a field -/

def scheduleLine : Json :=
  .object [.mk "JsonScheduleV1" (.object [.mk "CIF_train_uid" (.text "W12345"),
    .mk "schedule_segment" (.object [.mk "schedule_location" (.array [])])])]

def tiplocLine : Json :=
  .object
    [.mk "TiplocV1" (.object [.mk "tiploc_code" (.text "BRGHTN"), .mk "stanox" (.text "87901")])]

def associationLine (note : String) : Json :=
  .object [.mk "JsonAssociationV1" (.object [.mk "note" (.text note)])]

theorem single_of_association (note : String) :
    ∀ line ∈ [scheduleLine, tiplocLine, associationLine note], SingleRecord line := by
  simp only [List.forall_mem_cons, List.not_mem_nil, false_imp_iff, implies_true, and_true]
  exact ⟨⟨_, _, rfl⟩, ⟨_, _, rfl⟩, ⟨_, _, rfl⟩⟩

theorem plain_unmistakable :
    ∀ line ∈ [scheduleLine, tiplocLine, associationLine "none"], Unmistakable line := by
  have tiploc : ¬ Mentions "schedule_location" tiplocLine := by decide
  have association : ¬ Mentions "schedule_location" (associationLine "none") := by decide
  have association' : ¬ Mentions "TiplocV1" (associationLine "none") := by decide
  simp only [List.forall_mem_cons, List.not_mem_nil, false_imp_iff, implies_true, and_true]
  refine ⟨⟨?_, ?_⟩, ⟨fun _ => tiploc, ?_⟩, ⟨fun _ => association, fun _ _ both =>
    association' both.1⟩⟩
  · intro noSchedule
    cases noSchedule
  · intro noSchedule
    cases noSchedule
  · intro _ noTiploc
    cases noTiploc

/-- The rule at a feed whose association mentions nothing. -/
theorem plain_feed_is_classified :
    ClassifiedByType [scheduleLine, tiplocLine, associationLine "none"] :=
  (feed_is_classified_iff (single_of_association "none")).mpr plain_unmistakable

/-- An association that mentions the field goes to the schedule file, where its record has no key.
    -/
theorem mentioned_field_misleads :
    (∀ line ∈ [scheduleLine, tiplocLine, associationLine "schedule_location"], SingleRecord line) ∧
      extractSchedulesAndTiplocs [scheduleLine, tiplocLine, associationLine "schedule_location"] =
        ([scheduleLine, associationLine "schedule_location"], [tiplocLine]) ∧
      makeSchedule (associationLine "schedule_location") = none ∧
      ¬ ClassifiedByType [scheduleLine, tiplocLine, associationLine "schedule_location"] := by
  have extracted :
      extractSchedulesAndTiplocs [scheduleLine, tiplocLine, associationLine "schedule_location"] =
      ([scheduleLine, associationLine "schedule_location"], [tiplocLine]) := by
    have schedule : inText "schedule_location" scheduleLine = true :=
      inText_scheduleLocation.mpr (mentions_of_hasScheduleLocation (by decide))
    have association : inText "schedule_location" (associationLine "schedule_location") = true :=
      inText_scheduleLocation.mpr (by decide)
    have noSchedule : ¬ inText "schedule_location" tiplocLine = true := by
      rw [inText_scheduleLocation]
      decide
    obtain ⟨mentions, names⟩ :=
      marked_of_hasStanoxText (by decide : hasStanoxText tiplocLine = true)
    simp [extractSchedulesAndTiplocs, schedule, association, noSchedule,
      inText_tiplocV1.mpr mentions,
      inText_stanox.mpr names]
  refine ⟨single_of_association _, extracted, rfl, ?_⟩
  rintro ⟨_, keys, _⟩
  rw [extracted] at keys
  exact absurd (keys (associationLine "schedule_location") (by simp)) (by decide)

end TrainWatch.Verified.FeedClassification
