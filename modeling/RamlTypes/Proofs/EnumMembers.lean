import Mathlib
import RamlTypes.EnumDef
import RamlTypes.Proofs.Outcomes

/-!
# Members of enums

An enum has one member for each of its literals, in their order. Names are given from the first
literal on. A member has the name that its literal asks for, unless an earlier one has it; then it
takes the first number that makes the name free, where an earlier member may have got its own name
by a number as well. So no two members share a name, the renamed ones are those that are reported,
and literals that are added at the end change nothing in front of them.
-/
namespace RamlTypes

/-! ### Literals -/

/-- Only texts, truth values and numbers are literals of an enum. -/
def Value.isRefused : Value → Bool
  | .scalar (.text _) => false
  | .scalar (.bool _) => false
  | .scalar (.int _) => false
  | .scalar (.float _) => false
  | _ => true

theorem Literal.ofValue?_eq_none_iff (value : Value) :
    Literal.ofValue? value = none ↔ value.isRefused = true := by
  match value with
  | .scalar .null | .scalar (.bool _) | .scalar (.int _) | .scalar (.float _) | .scalar (.text _)
  | .scalar (.timestamp _) | .scalar (.bytes _) | .list _ | .map _ | .set _ | .pair _ _ =>
    simp [Literal.ofValue?, Value.isRefused]

/-- What a literal keeps of a value: a text or a number as it is, and a truth value by its text. -/
inductive Literal.Keeps : Value → Literal → Prop where
  | text (s : String) : Keeps (.scalar (.text s)) (.text s)
  | int (n : Int) : Keeps (.scalar (.int n)) (.int n)
  | float (x : Double) : Keeps (.scalar (.float x)) (.float x)
  | yes : Keeps (.scalar (.bool true)) (.text "true")
  | no : Keeps (.scalar (.bool false)) (.text "false")

theorem Literal.keeps_of_ofValue? {value : Value} {literal : Literal}
    (accepted : Literal.ofValue? value = some literal) : Literal.Keeps value literal := by
  match value with
  | .scalar (.text s) =>
    cases accepted
    exact .text s
  | .scalar (.int n) =>
    cases accepted
    exact .int n
  | .scalar (.float x) =>
    cases accepted
    exact .float x
  | .scalar (.bool true) =>
    cases accepted
    exact .yes
  | .scalar (.bool false) =>
    cases accepted
    exact .no
  | .scalar .null | .scalar (.timestamp _) | .scalar (.bytes _) | .list _ | .map _ | .set _
  | .pair _ _ => cases accepted

/-- Whether a member has another name than its literal asks for. -/
def EnumMember.isRenamed (m : EnumMember) : Bool := m.name ≠ m.value.baseName

namespace EnumDef

variable {enum base name : String} {path : Path} {taken : List String} {values : List Value}
  {members : List EnumMember}

/-- Literals that are refused or cannot be written end the search for names, in their order. -/
theorem membersFor_rejectedBy (enum : String) (path : Path) (taken : List String)
    (values : List Value) :
    RejectedBy .ofRead (∃ value ∈ values, value.isRefused = true)
      (∃ value ∈ values, value.isPrintable = false)
      (membersFor enum path taken values).outcome := by
  induction values generalizing taken with
  | nil => exact .of_returns rfl (by simp) (by simp)
  | cons value rest ih =>
    cases printable : value.isPrintable with
    | false =>
      rw [membersFor, printable]
      exact .longNumber ⟨value, by simp, printable⟩
    | true =>
      cases accepted : Literal.ofValue? value with
      | none =>
        have bad := (Literal.ofValue?_eq_none_iff value).mp accepted
        rw [membersFor, if_pos printable, accepted]
        exact .defect ⟨value, by simp, bad⟩
      | some literal =>
        have good : value.isRefused ≠ true := by
          rw [Ne, ← Literal.ofValue?_eq_none_iff, accepted]
          simp
        rw [outcome_membersFor_cons printable accepted]
        exact ((ih (freshName literal.baseName taken :: taken)).map _).congr (by simp [good])
          (by simp [printable])

/-- The members of a list of literals are those of the first one and of the others behind it. -/
theorem membersFor_cons_ok {value : Value}
    (built : (membersFor enum path taken (value :: values)).outcome = .ok members) :
    ∃ literal rest, value.isPrintable = true ∧ Literal.ofValue? value = some literal ∧
      members = ⟨freshName literal.baseName taken, literal⟩ :: rest ∧
      (membersFor enum path (freshName literal.baseName taken :: taken) values).outcome =
        .ok rest := by
  cases printable : value.isPrintable with
  | false =>
    rw [membersFor, printable] at built
    cases built
  | true =>
    cases accepted : Literal.ofValue? value with
    | none =>
      rw [membersFor, if_pos printable, accepted] at built
      cases built
    | some literal =>
      rw [outcome_membersFor_cons printable accepted, map_ok_iff] at built
      obtain ⟨rest, behind, rfl⟩ := built
      exact ⟨literal, rest, rfl, rfl, rfl, behind⟩

theorem membersFor_literals
    (built : (membersFor enum path taken values).outcome = .ok members) :
    List.Forall₂ (fun value member => Literal.ofValue? value = some member.value)
      values members := by
  -- The names that are taken grow from member to member, so this is for any of them.
  induction values generalizing taken members with
  | nil =>
    cases built
    exact .nil
  | cons value rest ih =>
    obtain ⟨literal, members', _, accepted, rfl, behind⟩ := membersFor_cons_ok built
    exact .cons accepted (ih behind)

/-! ### Names -/

/-- The name of a member whose literal asks for `base`: that name itself if no earlier member has
it, and otherwise the name with the least number from two on that no earlier member has. -/
inductive IsNameFor (earlier : List String) (base : String) : String → Prop where
  | own (free : base ∉ earlier) : IsNameFor earlier base base
  | numbered (n : Nat) (taken : base ∈ earlier) (two_le : 2 ≤ n)
      (free : numbered base n ∉ earlier)
      (least : ∀ k, 2 ≤ k → k < n → EnumDef.numbered base k ∈ earlier) :
      IsNameFor earlier base (numbered base n)

theorem numbered_injective (base : String) : Function.Injective (numbered base) := by
  intro m n same
  rw [numbered, numbered, String.append_right_inj] at same
  exact Nat.repr_inj.mp same

/-- There are more numbers to choose from than names that are taken. -/
theorem exists_free (base : String) (taken : List String) :
    ∃ n ∈ List.range' 2 (taken.length + 1), numbered base n ∉ taken := by
  by_contra! all
  have nodup : ((List.range' 2 (taken.length + 1)).map (numbered base)).Nodup :=
    List.Nodup.map (numbered_injective base) List.nodup_range'
  have within : (List.range' 2 (taken.length + 1)).map (numbered base) ⊆ taken := by
    intro name member
    obtain ⟨n, listed, rfl⟩ := List.mem_map.mp member
    exact all n listed
  have few := (List.subperm_of_subset nodup within).length_le
  rw [List.length_map, List.length_range'] at few
  omega

theorem freshName_isNameFor (base : String) (taken : List String) :
    IsNameFor taken base (freshName base taken) := by
  rw [freshName]
  split
  next used =>
    rw [List.find?_map]
    cases found : (List.range' 2 (taken.length + 1)).find?
        ((fun name => decide (name ∉ taken)) ∘ numbered base) with
    | none =>
      obtain ⟨n, listed, free⟩ := exists_free base taken
      have none := List.find?_eq_none.mp found n listed
      simp [free] at none
    | some n =>
      obtain ⟨free, listed, least⟩ := List.find?_range'_eq_some.mp found
      refine .numbered n used (List.mem_range'_1.mp listed).1 (by simpa using free) ?_
      exact fun k two_le before => by simpa using least k two_le before
  next free => exact .own free

theorem IsNameFor.not_mem (named : IsNameFor taken base name) : name ∉ taken := by
  cases named with
  | own free => exact free
  | numbered n _ _ free _ => exact free

theorem IsNameFor.ne_iff (named : IsNameFor taken base name) : name ≠ base ↔ base ∈ taken := by
  cases named with
  | own free => simp [free]
  | numbered n used _ free _ => exact iff_of_true (ne_of_mem_of_not_mem used free).symm used

theorem IsNameFor.congr {other : List String} (named : IsNameFor taken base name)
    (same : ∀ name, name ∈ taken ↔ name ∈ other) : IsNameFor other base name := by
  cases named with
  | own free => exact .own (by rwa [← same])
  | numbered n used two_le free least =>
    exact .numbered n ((same _).mp used) two_le (by rwa [← same])
      fun k two_le before => (same _).mp (least k two_le before)

/-- Each member is named in view of the members in front of it and of the names taken before. -/
def NamedInTurn (taken : List String) (members : List EnumMember) : Prop :=
  ∀ before m after, members = before ++ m :: after →
    IsNameFor (before.map (·.name) ++ taken) m.value.baseName m.name

theorem membersFor_namedInTurn
    (built : (membersFor enum path taken values).outcome = .ok members) :
    NamedInTurn taken members := by
  induction values generalizing taken members with
  | nil =>
    cases built
    simp [NamedInTurn]
  | cons value rest ih =>
    obtain ⟨literal, members', _, _, rfl, behind⟩ := membersFor_cons_ok built
    intro before m after split
    rcases List.cons_eq_append_iff.mp split with ⟨rfl, here⟩ | ⟨before', rfl, split'⟩
    · cases here
      exact freshName_isNameFor _ taken
    · -- The first name is one of those that are taken for the members behind it.
      refine (ih behind before' m after split').congr fun name => ?_
      simp only [List.map_cons, List.mem_append, List.mem_cons]
      tauto

theorem NamedInTurn.of_append {after : List EnumMember}
    (named : NamedInTurn taken (members ++ after)) : NamedInTurn taken members := by
  intro front m behind split
  exact named front m (behind ++ after) (by simp [split])

theorem NamedInTurn.nodup (named : NamedInTurn taken members) :
    (members.map (·.name)).Nodup := by
  induction members using List.reverseRecOn with
  | nil => exact .nil
  | append_singleton before m ih =>
    have last := (named before m [] rfl).not_mem
    rw [List.map_append, List.map_singleton, ← List.concat_eq_append]
    exact (ih named.of_append).concat fun member => last (List.mem_append_left _ member)

/-! ### Reports -/

/-- What is reported of the members of an enum: each one that has got another name. -/
def renamings (enum : String) (members : List EnumMember) : List Event :=
  (members.filter (·.isRenamed)).map fun m => .memberRenamed enum m.value.baseName m.name

theorem log_membersFor (built : (membersFor enum path taken values).outcome = .ok members) :
    (membersFor enum path taken values).log = renamings enum members := by
  induction values generalizing taken members with
  | nil =>
    cases built
    rfl
  | cons value rest ih =>
    obtain ⟨literal, members', printable, accepted, rfl, behind⟩ := membersFor_cons_ok built
    have later := ih behind
    rw [membersFor, if_pos printable, accepted]
    dsimp only
    by_cases renamed : freshName literal.baseName taken = literal.baseName
    · rw [if_neg (not_not.mpr renamed), Logged.log_bind behind, later]
      simp [renamings, EnumMember.isRenamed, renamed]
    · rw [if_pos renamed, Logged.log_bind (Logged.outcome_emit _), Logged.log_bind behind, later]
      simp [renamings, EnumMember.isRenamed, renamed]

/-- The members of the first literals are the first members. -/
theorem membersFor_append {more : List Value}
    (built : (membersFor enum path taken (values ++ more)).outcome = .ok members) :
    ∃ members', (membersFor enum path taken values).outcome = .ok members' ∧
      members' <+: members := by
  induction values generalizing taken members with
  | nil => exact ⟨[], rfl, List.nil_prefix⟩
  | cons value rest ih =>
    obtain ⟨literal, others, printable, accepted, rfl, behind⟩ := membersFor_cons_ok built
    obtain ⟨others', behind', begins⟩ := ih behind
    refine ⟨⟨freshName literal.baseName taken, literal⟩ :: others', ?_,
      List.cons_prefix_cons.mpr ⟨rfl, begins⟩⟩
    rw [outcome_membersFor_cons printable accepted, behind']
    rfl

/-! ### Enums -/

theorem ofLiterals_ok_iff {owner propertyName valueType : String} {e : EnumDef} :
    (ofLiterals owner propertyName values valueType).outcome = .ok e ↔
      ∃ members, (membersFor (nameFor owner propertyName) (pathOf owner propertyName) []
          values).outcome = .ok members ∧
        e = ⟨nameFor owner propertyName, owner, propertyName, valueType, members⟩ := by
  simp only [ofLiterals, Logged.outcome_bind, bind_ok_iff, Logged.outcome_pure, Except.ok.injEq]
  exact exists_congr fun _ => and_congr_right fun _ => eq_comm

theorem ofLiterals_rejectedBy (owner propertyName valueType : String) (values : List Value) :
    RejectedBy .ofRead (∃ value ∈ values, value.isRefused = true)
      (∃ value ∈ values, value.isPrintable = false)
      (ofLiterals owner propertyName values valueType).outcome := by
  rw [ofLiterals, Logged.outcome_bind]
  exact (membersFor_rejectedBy _ _ [] values).bind_returns fun _ => ⟨_, rfl⟩

/-- Literals that are not refused have an enum exactly if all of them can be written. -/
theorem ofLiterals_returns_iff (owner propertyName valueType : String)
    (accepted : ∀ value ∈ values, value.isRefused = false) :
    (∃ e, (ofLiterals owner propertyName values valueType).outcome = .ok e) ↔
      ∀ value ∈ values, value.isPrintable = true := by
  have sound : ¬ ∃ value ∈ values, value.isRefused = true := by simpa using accepted
  rw [(ofLiterals_rejectedBy owner propertyName valueType values).returns_iff, and_iff_right sound]
  simp

/-- An enum has one member for each of its literals. -/
theorem ofLiterals_keeps {owner propertyName valueType : String} {e : EnumDef}
    (made : (ofLiterals owner propertyName values valueType).outcome = .ok e) :
    List.Forall₂ (fun value m => Literal.Keeps value m.value) values e.members := by
  obtain ⟨members, built, rfl⟩ := ofLiterals_ok_iff.mp made
  exact (membersFor_literals built).imp fun _ _ => Literal.keeps_of_ofValue?

/-- An enum of literals that are not refused is made exactly if all of them can be written, and
otherwise a number is too long. It has one member for each literal, in their order. The names are
different, each is what the literal asks for or the first number that is free, those with a number
are reported, and the members of the first literals are the first members. -/
theorem ofLiterals_members (owner propertyName valueType : String)
    (accepted : ∀ value ∈ values, value.isRefused = false) :
    ((∃ e, (ofLiterals owner propertyName values valueType).outcome = .ok e) ↔
      ∀ value ∈ values, value.isPrintable = true) ∧
    ((∃ value ∈ values, value.isPrintable = false) →
      (ofLiterals owner propertyName values valueType).outcome = .error .longNumber) ∧
    ∀ e, (ofLiterals owner propertyName values valueType).outcome = .ok e →
      List.Forall₂ (fun value m => Literal.Keeps value m.value) values e.members ∧
      (e.members.map (·.name)).Nodup ∧
      (∀ before m after, e.members = before ++ m :: after →
        IsNameFor (before.map (·.name)) m.value.baseName m.name ∧
        (m.isRenamed = true ↔ m.value.baseName ∈ before.map (·.name))) ∧
      (ofLiterals owner propertyName values valueType).log = renamings e.name e.members ∧
      ∀ first, first <+: values → ∃ e',
        (ofLiterals owner propertyName first valueType).outcome = .ok e' ∧
          e'.members <+: e.members := by
  have ends := ofLiterals_rejectedBy owner propertyName valueType values
  have sound : ¬ ∃ value ∈ values, value.isRefused = true := by simpa using accepted
  refine ⟨ofLiterals_returns_iff owner propertyName valueType accepted, fun long => ?_,
    fun e made => ?_⟩
  · -- There is no enum, and no literal is refused, so it is the number that is to blame.
    cases ended : (ofLiterals owner propertyName values valueType).outcome with
    | ok e => exact absurd long (ends.returns_iff.mp ⟨e, ended⟩).2
    | error fault =>
      rcases ends.fault_of_error ended with ⟨bad, _⟩ | ⟨_, rfl⟩
      · exact absurd bad sound
      · rfl
  · have kept := ofLiterals_keeps made
    obtain ⟨members, built, rfl⟩ := ofLiterals_ok_iff.mp made
    have named := membersFor_namedInTurn built
    refine ⟨kept, named.nodup, ?_, ?_, ?_⟩
    · intro before m after split
      have here := named before m after split
      rw [List.append_nil] at here
      exact ⟨here, by simpa [EnumMember.isRenamed] using here.ne_iff⟩
    · rw [ofLiterals, Logged.log_bind built, log_membersFor built]
      simp
    · rintro first ⟨more, rfl⟩
      obtain ⟨members', built', begins⟩ := membersFor_append built
      exact ⟨_, ofLiterals_ok_iff.mpr ⟨members', built', rfl⟩, begins⟩

/-- Two modes that ask for the same name, and between them one that asks for it with a two. -/
def modeLiterals : List Value := [.text "a-b", .text "a b 2", .text "a.b", .scalar (.bool true)]

/-- The two is taken by its own name, so the third mode gets the three. -/
theorem ofLiterals_members_modes :
    (∀ value ∈ modeLiterals, value.isRefused = false) ∧
      ∃ e, (ofLiterals "Mode" "" modeLiterals "string").outcome = .ok e ∧
        (e.members.map (·.name) = ["A_B", "A_B_2", "A_B_3", "TRUE"] ∧
          renamings e.name e.members = [.memberRenamed "Mode" "A_B" "A_B_3"]) ∧
        (e.members.map (·.name)).Nodup ∧
        (ofLiterals "Mode" "" modeLiterals "string").log = renamings e.name e.members := by
  have accepted : ∀ value ∈ modeLiterals, value.isRefused = false := by decide
  obtain ⟨e, built, run⟩ : ∃ e, (ofLiterals "Mode" "" modeLiterals "string").outcome = .ok e ∧
      (e.members.map (·.name), renamings e.name e.members) =
        (["A_B", "A_B_2", "A_B_3", "TRUE"], [.memberRenamed "Mode" "A_B" "A_B_3"]) :=
    exists_of_toOption_map (by decide +kernel)
  obtain ⟨_, nodup, _, reported, _⟩ :=
    (ofLiterals_members "Mode" "" "string" accepted).2.2 e built
  exact ⟨accepted, e, built, Prod.mk.inj run, nodup, reported⟩

/-- The least integer that cannot be written is a literal like any other, but there is no enum with
it. -/
theorem ofLiterals_long :
    (∀ value ∈ [Value.scalar .longInteger], value.isRefused = false) ∧
      (ofLiterals "Code" "" [.scalar .longInteger] "integer").outcome = .error .longNumber := by
  have long : (Value.scalar .longInteger).isPrintable = false := Scalar.isPrintable_longInteger
  refine ⟨List.forall_mem_singleton.mpr rfl, ?_⟩
  rw [ofLiterals, membersFor, long]
  rfl

end EnumDef

end RamlTypes
