import Interpolation.Delimiters.Json
import Interpolation.Proofs.Json.Compact
import Interpolation.Proofs.Json.Document
import Mathlib

/-!
# Configurations as JSON

What reading a configuration comes to, for every object and every text that spells it: the fields
that are given, in whatever order and among whatever other members, and the defaults for the others.
Nothing else makes a configuration of an object, and a configuration that is written is read back.

## Main definitions

- `given`: the values that members give a field.
- `ConfigField.Suits`, `Describes`: the members that describe a configuration.
- `withMembers`: the configuration with the fields that members give.
- `checked`: a configuration, unless one of its tokens is empty.

## Main results

- `setField_eq_ok_iff`, `setMembers_eq_ok_iff`: one member and a list of members.
- `parseJson_object`: the texts of an object.
- `parseJson_faithful`: a configuration survives being written, and an object is read as described.
-/

namespace Interpolation

open Json (IsDocument)

/-! ## Layer A: what members say -/

theorem ConfigField.ofName?_name (field : ConfigField) :
    ConfigField.ofName? field.name = some field := by
  rcases field with (_ | _) | _ <;> decide

/-- A name is that of one field at most. -/
theorem ConfigField.ofName?_eq_some_iff {name : String} {field : ConfigField} :
    ConfigField.ofName? name = some field ↔ name = field.name := by
  constructor
  · intro h
    have hfound := List.find?_some h
    exact (of_decide_eq_true hfound).symm
  · rintro rfl
    exact field.ofName?_name

theorem ConfigField.name_inj {field field' : ConfigField} (h : field.name = field'.name) :
    field = field' := by
  have hname := ofName?_eq_some_iff.mpr h
  rw [field.ofName?_name] at hname
  exact Option.some.inj hname

/-- The kind of value that a field takes. -/
def ConfigField.Suits : ConfigField → Json → Prop
  | .token _, json => ∃ text, json.toString? = some text
  | .template, json => ∃ flag, json.toBool? = some flag

namespace Delimiters

variable {d d' : Delimiters} {members : List (JsonText × Json)} {name : JsonText} {json : Json}
  {field : ConfigField} {seen : List ConfigField}

/-- The values that the members of an object give a field, in their order. -/
def given (members : List (JsonText × Json)) (field : ConfigField) : List Json :=
  members.filterMap fun member =>
    if member.1.toString? = some field.name then some member.2 else none

/-- The members describe a configuration: all names are texts, each field is given at most once,
and with a value that suits it. -/
structure Describes (members : List (JsonText × Json)) : Prop where
  /-- All names can be read as texts. -/
  named : ∀ member ∈ members, ∃ name, member.1.toString? = some name
  /-- No field is given twice. -/
  once : ∀ field, (given members field).length ≤ 1
  /-- The values are of the right kind. -/
  suited : ∀ field, ∀ json ∈ given members field, field.Suits json

/-- A configuration with the fields that members give in place of its own. -/
def withMembers (d : Delimiters) (members : List (JsonText × Json)) : Delimiters where
  opening := ((given members (.token .opening)).head?.bind Json.toString?).getD d.opening
  closing := ((given members (.token .closing)).head?.bind Json.toString?).getD d.closing
  template := ((given members .template).head?.bind Json.toBool?).getD d.template

/-- A configuration, unless one of its tokens is empty. -/
def checked (d : Delimiters) : Except Error Delimiters :=
  if d.opening = "" then .error (.unspanned (.invalidDelimiter .opening))
  else if d.closing = "" then .error (.unspanned (.invalidDelimiter .closing))
  else .ok d

theorem check_map_eq (d : Delimiters) : (d.check.map fun _ => d) = d.checked := by
  unfold check fault? checked
  by_cases hopening : d.opening = ""
  · simp [hopening, Except.map]
  · by_cases hclosing : d.closing = "" <;> simp [hopening, hclosing, Except.map]

/-! ## Layer B: one member -/

theorem given_append (members members' : List (JsonText × Json)) (field : ConfigField) :
    given (members ++ members') field = given members field ++ given members' field :=
  List.filterMap_append

theorem given_of_name (h : name.toString? = some field.name) :
    given [(name, json)] field = [json] := by
  simp [given, h]

theorem given_of_ne (h : name.toString? ≠ some field.name) : given [(name, json)] field = [] := by
  simp [given, h]

/-- A member that gives a field gives no other. -/
theorem given_of_other {other : ConfigField} (h : name.toString? = some field.name)
    (hne : other ≠ field) : given [(name, json)] other = [] := by
  apply given_of_ne
  rw [h]
  intro heq
  exact hne (ConfigField.name_inj (Option.some.inj heq).symm)

/-- Fields that are given in two rows of members, none of them in both. -/
theorem withMembers_append {members' : List (JsonText × Json)}
    (h : ∀ field, given members field = [] ∨ given members' field = []) :
    (d.withMembers members).withMembers members' = d.withMembers (members ++ members') := by
  -- The three fields differ only in how their value is read.
  have hfield : ∀ {α : Type} (field : ConfigField) (read : Json → Option α) (default : α),
      ((given members' field).head?.bind read).getD
          (((given members field).head?.bind read).getD default) =
        ((given (members ++ members') field).head?.bind read).getD default := by
    intro α field read default
    rw [given_append]
    rcases h field with hnil | hnil <;> simp [hnil]
  simp only [withMembers, hfield]

theorem withMembers_congr {members' : List (JsonText × Json)}
    (h : ∀ field, given members field = given members' field) :
    d.withMembers members = d.withMembers members' := by
  simp only [withMembers, h]

/-- A member gives its value to its own field, and nothing to the others. -/
theorem given_singleton (h : name.toString? = some field.name) (other : ConfigField) :
    given [(name, json)] other = if other = field then [json] else [] := by
  by_cases hne : other = field
  · rw [if_pos hne, hne, given_of_name h]
  · rw [if_neg hne, given_of_other h hne]

/-- A field takes the values that suit it, and is then the field that the member gives. -/
theorem setField_eq_ok_iff (h : name.toString? = some field.name) :
    d.setField field json = .ok d' ↔ field.Suits json ∧ d' = d.withMembers [(name, json)] := by
  rcases field with (_ | _) | _
  · cases htext : json.toString? <;>
      simp [setField, htext, ConfigField.Suits, withMembers, given_singleton h, eq_comm]
  · cases htext : json.toString? <;>
      simp [setField, htext, ConfigField.Suits, withMembers, given_singleton h, eq_comm]
  · cases hflag : json.toBool? <;>
      simp [setField, hflag, ConfigField.Suits, withMembers, given_singleton h, eq_comm]

/-! ## Layer C: a list of members -/

theorem given_cons (name : JsonText) (json : Json) (members : List (JsonText × Json))
    (field : ConfigField) :
    given ((name, json) :: members) field =
      given [(name, json)] field ++ given members field :=
  given_append [(name, json)] members field

theorem Describes.nil : Describes [] :=
  ⟨nofun, fun _ => Nat.zero_le 1, fun _ _ h => absurd h List.not_mem_nil⟩

theorem given_cons_of_other {other : ConfigField} (hname : name.toString? = some field.name)
    (hne : other ≠ field) : given ((name, json) :: members) other = given members other := by
  rw [given_cons, given_of_other hname hne, List.nil_append]

theorem given_cons_of_name (hname : name.toString? = some field.name) :
    given ((name, json) :: members) field = json :: given members field := by
  rw [given_cons, given_of_name hname, List.singleton_append]

theorem given_cons_of_unknown (hunknown : ∀ field, given [(name, json)] field = [])
    (field : ConfigField) : given ((name, json) :: members) field = given members field := by
  rw [given_cons, hunknown, List.nil_append]

/-- A member that gives a field first, and members that do not give it again. -/
theorem withMembers_cons (hname : name.toString? = some field.name)
    (hnil : given members field = []) :
    (d.withMembers [(name, json)]).withMembers members =
      d.withMembers ((name, json) :: members) := by
  refine withMembers_append fun other => ?_
  by_cases hne : other = field
  · exact .inr (hne ▸ hnil)
  · exact .inl (given_of_other hname hne)

/-- A member that gives no field has no part in what is described. -/
theorem describes_cons_of_unknown {text : String} (hname : name.toString? = some text)
    (hunknown : ∀ field, given [(name, json)] field = []) :
    Describes ((name, json) :: members) ↔ Describes members := by
  have hgiven : ∀ field, given ((name, json) :: members) field = given members field :=
    given_cons_of_unknown hunknown
  constructor
  · rintro ⟨hnamed, honce, hsuited⟩
    simp only [hgiven] at honce hsuited
    exact ⟨(List.forall_mem_cons.mp hnamed).2, honce, hsuited⟩
  · rintro ⟨hnamed, honce, hsuited⟩
    simp only [← hgiven] at honce hsuited
    exact ⟨List.forall_mem_cons.mpr ⟨⟨text, hname⟩, hnamed⟩, honce, hsuited⟩

/-- A member that gives a field must suit it, and no other member may give it. -/
theorem describes_cons_of_field (hname : name.toString? = some field.name) :
    Describes ((name, json) :: members) ↔
      field.Suits json ∧ given members field = [] ∧ Describes members := by
  have hfirst : given ((name, json) :: members) field = json :: given members field :=
    given_cons_of_name hname
  constructor
  · -- The field is given here, so once leaves nothing for the members behind.
    rintro ⟨hnamed, honce, hsuited⟩
    have hlength := honce field
    rw [hfirst, List.length_cons] at hlength
    have hnil : given members field = [] := List.eq_nil_of_length_eq_zero (by omega)
    refine ⟨hsuited field json ?_, hnil, (List.forall_mem_cons.mp hnamed).2, ?_, ?_⟩
    · rw [hfirst]
      exact List.mem_cons_self
    · intro other
      have hone := honce other
      rw [given_cons, List.length_append] at hone
      omega
    · intro other value hvalue
      refine hsuited other value ?_
      rw [given_cons]
      exact List.mem_append_right _ hvalue
  · -- Each field is either this one or is given by the members behind only.
    rintro ⟨hsuits, hnil, hnamed, honce, hsuited⟩
    refine ⟨List.forall_mem_cons.mpr ⟨⟨_, hname⟩, hnamed⟩, ?_, ?_⟩
    · intro other
      by_cases hne : other = field
      · rw [hne, hfirst, hnil]
        exact Nat.le_refl 1
      · rw [given_cons_of_other hname hne]
        exact honce other
    · intro other value hvalue
      by_cases hne : other = field
      · rw [hne, hfirst, hnil, List.mem_singleton] at hvalue
        rw [hne, hvalue]
        exact hsuits
      · rw [given_cons_of_other hname hne] at hvalue
        exact hsuited other value hvalue

theorem setMembers_cons_of_unknown {text : String} (hname : name.toString? = some text)
    (hfield : ConfigField.ofName? text = none) :
    setMembers d seen ((name, json) :: members) = setMembers d seen members := by
  simp only [setMembers, hname, hfield]

/-- The step of the reader over a member that gives a field. -/
theorem setMembers_cons_of_field (hname : name.toString? = some field.name) :
    setMembers d seen ((name, json) :: members) = .ok d' ↔
      field ∉ seen ∧ field.Suits json ∧
        setMembers (d.withMembers [(name, json)]) (field :: seen) members = .ok d' := by
  simp only [setMembers, hname, field.ofName?_name]
  -- Repeating a field is refused before its value is looked at.
  by_cases hseen : field ∈ seen
  · simp [hseen]
  · cases hset : d.setField field json with
    | error fault =>
      have hsuits : ¬ field.Suits json := by
        intro hsuits
        rw [(setField_eq_ok_iff hname).mpr ⟨hsuits, rfl⟩] at hset
        cases hset
      simp [hseen, hsuits]
    | ok next =>
      obtain ⟨hsuits, rfl⟩ := (setField_eq_ok_iff hname).mp hset
      simp [hseen, hsuits]

/-- **A list of members is read exactly if it describes a configuration** and gives no field again
that has been given already. -/
theorem setMembers_eq_ok_iff :
    setMembers d seen members = .ok d' ↔
      Describes members ∧ (∀ field ∈ seen, given members field = []) ∧
        d' = d.withMembers members := by
  -- Along the members; `seen` is what has been given in front of them.
  induction members generalizing d seen with
  | nil =>
    have hd : d.withMembers [] = d := rfl
    simp [setMembers, Describes.nil, given, hd, eq_comm]
  | cons member members ih =>
    obtain ⟨name, json⟩ := member
    cases hname : name.toString? with
    | none =>
      -- A name that is no text describes nothing.
      have hunnamed : ¬ Describes ((name, json) :: members) := by
        rintro ⟨hnamed, -, -⟩
        obtain ⟨text, htext⟩ := hnamed (name, json) List.mem_cons_self
        rw [hname] at htext
        cases htext
      simp [setMembers, hname, hunnamed]
    | some text =>
      cases hfield : ConfigField.ofName? text with
      | none =>
        -- The name is of no field, so the member is passed over.
        have hunknown : ∀ field, given [(name, json)] field = [] := by
          intro field
          apply given_of_ne
          rw [hname]
          rintro heq
          rw [Option.some.inj heq, field.ofName?_name] at hfield
          cases hfield
        have hgiven : ∀ field, given ((name, json) :: members) field = given members field :=
          given_cons_of_unknown hunknown
        rw [setMembers_cons_of_unknown hname hfield, ih, describes_cons_of_unknown hname hunknown,
          withMembers_congr hgiven]
        simp only [hgiven]
      | some field =>
        -- The name is that of a field.
        rw [ConfigField.ofName?_eq_some_iff.mp hfield] at hname
        rw [setMembers_cons_of_field hname, ih, describes_cons_of_field hname]
        constructor
        · rintro ⟨hunseen, hsuits, hdescribes, hnone, rfl⟩
          obtain ⟨hnil, hseen⟩ := List.forall_mem_cons.mp hnone
          refine ⟨⟨hsuits, hnil, hdescribes⟩, fun other hother => ?_, ?_⟩
          · rw [given_cons_of_other hname (ne_of_mem_of_not_mem hother hunseen)]
            exact hseen other hother
          · exact withMembers_cons hname hnil
        · rintro ⟨⟨hsuits, hnil, hdescribes⟩, hseen, rfl⟩
          have hunseen : field ∉ seen := by
            intro hmem
            have htwice := hseen field hmem
            rw [given_cons_of_name hname] at htwice
            cases htwice
          refine ⟨hunseen, hsuits, hdescribes, ?_, (withMembers_cons hname hnil).symm⟩
          refine List.forall_mem_cons.mpr ⟨hnil, fun other hother => ?_⟩
          rw [← given_cons_of_other hname (ne_of_mem_of_not_mem hother hunseen)]
          exact hseen other hother

/-! ## Layer D: texts -/

/-- A document that describes no configuration is an error of the configuration. -/
theorem error_of_ofJson {text : String} (htext : Json.parse? text = some json)
    (h : ∀ d, ofJson json ≠ .ok d) :
    ∃ message, parseJson text = .error (.unspanned (.invalidConfig message)) := by
  cases hread : ofJson json with
  | error fault => exact ⟨fault.message, by simp only [parseJson, htext, hread]⟩
  | ok d => exact absurd hread (h d)

/-- **The texts of an object** are read as the configuration that the members describe, and are
faulty if the members describe none. -/
theorem parseJson_object {text : String} (htext : IsDocument text (.object members)) :
    (Describes members → parseJson text = (hash.withMembers members).checked) ∧
      (¬ Describes members →
        ∃ message, parseJson text = .error (.unspanned (.invalidConfig message))) := by
  have hparse := Json.parse?_eq_some_iff.mpr htext
  constructor
  · intro hdescribes
    have hread : ofJson (.object members) = .ok (hash.withMembers members) :=
      setMembers_eq_ok_iff.mpr ⟨hdescribes, nofun, rfl⟩
    simp only [parseJson, hparse, hread, check_map_eq]
  · intro hdescribes
    refine error_of_ofJson hparse fun d hread => ?_
    exact hdescribes (setMembers_eq_ok_iff.mp hread).1

/-- The compact form of a configuration spells an object that gives every field its value. -/
theorem exists_members_toJson (d : Delimiters) :
    ∃ members, IsDocument d.toJson.compact (.object members) ∧ Describes members ∧
      hash.withMembers members = d := by
  obtain ⟨opening, hopening, hopens⟩ := Json.exists_spells_ofString d.opening
  obtain ⟨closing, hclosing, hcloses⟩ := Json.exists_spells_ofString d.closing
  obtain ⟨first, hfirst, hnamed⟩ :=
    Json.exists_writesMember (ConfigField.name (.token .opening)) hopening
  obtain ⟨second, hsecond, hsuffix⟩ :=
    Json.exists_writesMember (ConfigField.name (.token .closing)) hclosing
  obtain ⟨third, hthird, htemplate⟩ :=
    Json.exists_writesMember (ConfigField.name .template) (Json.spells_bool d.template)
  have hspells := Json.spells_writeCompact (List.cons_ne_nil _ _)
    (.cons hfirst (.cons hsecond (.cons hthird .nil)))
  refine ⟨_, ⟨[], _, [], Json.IsGap.nil, hspells, Json.IsGap.nil, ?_⟩, ?_, ?_⟩
  · simp [Json.compact, toJson, Json.ofMembers]
  · -- The members describe the configuration, from the last one to the first.
    have hlast : Describes [(third, .bool d.template)] :=
      (describes_cons_of_field htemplate).mpr ⟨⟨d.template, rfl⟩, rfl, .nil⟩
    have hmiddle : Describes [(second, .string closing), (third, .bool d.template)] :=
      (describes_cons_of_field hsuffix).mpr
        ⟨⟨d.closing, hcloses⟩, given_of_other htemplate (by decide), hlast⟩
    have hnone : given [(second, .string closing), (third, .bool d.template)]
        (.token .opening) = [] := by
      rw [given_cons_of_other hsuffix (by decide), given_of_other htemplate (by decide)]
    exact (describes_cons_of_field hnamed).mpr ⟨⟨d.opening, hopens⟩, hnone, hmiddle⟩
  · simp [withMembers, given, hnamed, hsuffix, htemplate, ConfigField.name, DelimiterToken.name,
      Json.toString?, Json.toBool?, hopens, hcloses]

/-- **Configurations survive being written, and objects are read as they describe.**  The compact
form of a configuration is read as that configuration, unless one of its tokens is empty.  Any text
of an object whose members describe a configuration is read as the fields that they give, with the
defaults for the others; any other object is no configuration, and in particular none that gives a
field twice. -/
theorem parseJson_faithful :
    (∀ d : Delimiters, parseJson d.toJson.compact = d.checked) ∧
    ∀ text members, IsDocument text (.object members) →
      (Describes members → parseJson text = (hash.withMembers members).checked) ∧
      (¬ Describes members →
        ∃ message, parseJson text = .error (.unspanned (.invalidConfig message))) ∧
      ∀ field, 1 < (given members field).length →
        ∃ message, parseJson text = .error (.unspanned (.invalidConfig message)) := by
  refine ⟨fun d => ?_, fun text members htext => ?_⟩
  · obtain ⟨members, htext, hdescribes, hsame⟩ := exists_members_toJson d
    rw [(parseJson_object htext).1 hdescribes, hsame]
  · obtain ⟨hread, hfault⟩ := parseJson_object htext
    refine ⟨hread, hfault, fun field htwice => hfault ?_⟩
    -- A field that is given twice is not given at most once.
    rintro ⟨-, honce, -⟩
    exact absurd (honce field) (Nat.not_le_of_lt htwice)

/-- Fields in another order among other members, and a field that is given twice. -/
theorem parseJson_faithful_reordered :
    (∃ members,
      IsDocument ("\x7b \"other\": [\x7b\"prefix\": 0\x7d], \"template\":false ,\n" ++
        "\"suffix\": \"\\u005d]\" \x7d") (.object members) ∧
      Describes members ∧
      parseJson ("\x7b \"other\": [\x7b\"prefix\": 0\x7d], \"template\":false ,\n" ++
        "\"suffix\": \"\\u005d]\" \x7d") = .ok ⟨"#\x7b", "]]", false⟩) ∧
    ∃ members,
      IsDocument "\x7b\"suffix\":\"]\",\"suffix\":\"]\"\x7d" (.object members) ∧
      ¬ Describes members ∧ 1 < (given members (.token .closing)).length ∧
      ∃ message, parseJson "\x7b\"suffix\":\"]\",\"suffix\":\"]\"\x7d" =
        .error (.unspanned (.invalidConfig message)) := by
  constructor
  · have htext : IsDocument ("\x7b \"other\": [\x7b\"prefix\": 0\x7d], \"template\":false ,\n" ++
        "\"suffix\": \"\\u005d]\" \x7d")
        (.object [(.ofString "other", .array [.object [(.ofString "prefix", .number (.ofNat 0))]]),
          (.ofString "template", .bool false),
          (.ofString "suffix", .string [.code 0x5D, .char ']'])]) := by
      apply Json.parse?_eq_some_iff.mp
      cbv
    have hdescribes : Describes
        [(.ofString "other", .array [.object [(.ofString "prefix", .number (.ofNat 0))]]),
          (.ofString "template", .bool false),
          (.ofString "suffix", .string [.code 0x5D, .char ']'])] := by
      have hother : (JsonText.ofString "other").toString? = some "other" := by cbv
      have htemplate : (JsonText.ofString "template").toString? =
          some (ConfigField.name .template) := by
        cbv
      have hclosing : (JsonText.ofString "suffix").toString? =
          some (ConfigField.name (.token .closing)) := by
        cbv
      refine (describes_cons_of_unknown hother ?_).mpr ?_
      · rintro ((_ | _) | _) <;> rfl
      · refine (describes_cons_of_field htemplate).mpr ⟨⟨false, rfl⟩, rfl, ?_⟩
        exact (describes_cons_of_field hclosing).mpr ⟨⟨"]]", by cbv⟩, rfl, .nil⟩
    exact ⟨_, htext, hdescribes, (parseJson_faithful.2 _ _ htext).1 hdescribes⟩
  · have htext : IsDocument "\x7b\"suffix\":\"]\",\"suffix\":\"]\"\x7d"
        (.object [(.ofString "suffix", .ofString "]"), (.ofString "suffix", .ofString "]")]) := by
      apply Json.parse?_eq_some_iff.mp
      cbv
    have htwice : 1 < (given [(.ofString "suffix", .ofString "]"),
        (.ofString "suffix", .ofString "]")] (.token .closing)).length := by
      decide
    have hfaulty : ¬ Describes [(.ofString "suffix", .ofString "]"),
        (.ofString "suffix", .ofString "]")] := by
      rintro ⟨-, honce, -⟩
      exact absurd (honce _) (Nat.not_le_of_lt htwice)
    exact ⟨_, htext, hfaulty, htwice, (parseJson_faithful.2 _ _ htext).2.2 _ htwice⟩

end Delimiters

end Interpolation
