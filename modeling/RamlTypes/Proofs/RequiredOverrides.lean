import RamlTypes.Overrides
import RamlTypes.Proofs.Chains
import RamlTypes.Proofs.SortedNames

/-!
# Required overrides

What a property requires beyond the type that it refers to is found by one of two rules. The names
that the type does not require are only looked for where the property requires more names than the
type does. The names behind as many as the type requires are those that it does not require exactly
if they sort last.

Both rules sort by title case, which different names may share. Such names stay in the order of
their declaration, or in the order in which a run goes through a set of them. So a list forgets that
order only where none of them is on it.
-/
namespace RamlTypes

open Text

theorem requiredNames_perm {properties properties' : List Property}
    (perm : properties.Perm properties') :
    (requiredNames properties).Perm (requiredNames properties') :=
  (perm.filter _).map _

/-- Properties with different names have different required names. -/
theorem requiredNames_nodup {properties : List Property}
    (distinct : (properties.map (·.name)).Nodup) : (requiredNames properties).Nodup :=
  distinct.sublist (List.filter_sublist.map _)

theorem requiredNames_reverse (properties : List Property) :
    requiredNames properties.reverse = (requiredNames properties).reverse := by
  rw [requiredNames, requiredNames, List.filter_reverse, List.map_reverse]

/-- The names of the first list that are not in the second one. -/
def missing (inline own : List String) : List String :=
  inline.eraseDups.filter fun required => !own.contains required

@[simp] theorem mem_missing {inline own : List String} {required : String} :
    required ∈ missing inline own ↔ required ∈ inline ∧ required ∉ own := by
  simp [missing]

theorem nodup_missing (inline own : List String) : (missing inline own).Nodup :=
  (nodup_eraseDups inline).filter _

theorem missing_perm {inline inline' own own' : List String} (perm : inline.Perm inline')
    (perm' : own.Perm own') : (missing inline own).Perm (missing inline' own') := by
  refine (List.perm_ext_iff_of_nodup (nodup_missing inline own) (nodup_missing inline' own')).mpr
    fun required => ?_
  rw [mem_missing, mem_missing, perm.mem_iff, perm'.mem_iff]

/-- The names are those of the first list that are not in the second one, each once and sorted by
title case. -/
structure IsSortedDifference (names inline own : List String) : Prop where
  mem_iff : ∀ required, required ∈ names ↔ required ∈ inline ∧ required ∉ own
  nodup : names.Nodup
  sorted : names.Pairwise fun a b => titleCase a ≤ titleCase b

/-- Whatever its order is, a difference has the names that are missing. -/
theorem SetOrder.difference_perm (order : SetOrder) (inline own : List String) :
    (order.difference inline own).Perm (missing inline own) :=
  order.perm inline own

theorem SetOrder.difference_perm_of_perm (order : SetOrder) {inline inline' own own' : List String}
    (perm : inline.Perm inline') (perm' : own.Perm own') :
    (order.difference inline own).Perm (order.difference inline' own') :=
  (order.difference_perm inline own).trans
    ((missing_perm perm perm').trans (order.difference_perm inline' own').symm)

theorem isSortedDifference_sortOn (order : SetOrder) (inline own : List String) :
    IsSortedDifference (sortOn titleCase (order.difference inline own)) inline own where
  mem_iff required := by rw [mem_sortOn, (order.difference_perm inline own).mem_iff, mem_missing]
  nodup := ((sortOn_perm _ _).trans (order.difference_perm inline own)).nodup_iff.mpr
    (nodup_missing inline own)
  sorted := sortOn_pairwise titleCase _

/-- No name is on the list exactly if no name is missing. -/
theorem isSortedDifference_nil_iff {inline own : List String} :
    IsSortedDifference [] inline own ↔ inline ⊆ own := by
  constructor
  · intro none required member
    by_contra absent
    exact List.not_mem_nil ((none.mem_iff required).mpr ⟨member, absent⟩)
  · intro within
    refine ⟨fun required => ?_, .nil, .nil⟩
    exact iff_of_false List.not_mem_nil fun ⟨member, absent⟩ => absent (within member)

namespace TypeGraph

variable {g g' : TypeGraph} {name : String} {node node' : TypeNode} {p p' : Property}

/-- The properties of a type are told apart by their names. -/
theorem Keyed.requiredNames_nodup (keyed : g.Keyed) (found : g.node? name = some node) :
    (requiredNames node.properties.values).Nodup := by
  apply RamlTypes.requiredNames_nodup
  have named : node.properties.values.map (·.name) = node.properties.keys := by
    rw [Table.values, Table.keys, List.map_map]
    exact List.map_congr_left (keyed.property _ (node?_eq_some_iff.mp found))
  rw [named]
  exact node.properties.nodup

/-! ### The two rules -/

/-- The names behind as many as the type requires; there are none left if the property requires no
more than that. -/
theorem requiredOverrides_suffix (found : g.node? name = some node) (p : Property) :
    g.requiredOverrides .suffix p (some name) =
      (sortOn titleCase (requiredNames p.children)).drop
        (requiredNames node.properties.values).length := by
  simp only [requiredOverrides, Option.bind_some, found]
  split
  next few =>
    symm
    apply List.drop_eq_nil_of_le
    rw [length_sortOn]
    exact few
  · rfl

theorem requiredOverrides_difference (order : SetOrder) (found : g.node? name = some node)
    (p : Property) :
    g.requiredOverrides (.difference order) p (some name) =
      if (requiredNames p.children).length ≤ (requiredNames node.properties.values).length then []
      else sortOn titleCase
        (order.difference (requiredNames p.children) (requiredNames node.properties.values)) := by
  simp only [requiredOverrides, Option.bind_some, found]

/-! ### Keepers -/

def stringProperty (required : Bool) (name : String) : Property :=
  ⟨name, .named "string" "string" "", required, [], none, ""⟩

/-- A person has a name and a phone, and maybe a nickname. -/
def personNode : TypeNode :=
  objectNode "Person" none
    ⟨[("name", stringProperty true "name"), ("nick", stringProperty false "nick"),
      ("phone", stringProperty true "phone")], by simp⟩

def personGraph : TypeGraph where
  title := ""
  nodes := ⟨[("Person", personNode)], by simp⟩
  resources := []

/-- A person of whom the given properties are required. -/
def keeper (names : List String) : Property :=
  ⟨"keeper", .named "Person" "Person" "", true, names.map (stringProperty true), none, ""⟩

theorem personGraph_person : personGraph.node? "Person" = some personNode := rfl

theorem personGraph_keyed : personGraph.Keyed := by
  constructor
  · intro entry member
    cases List.mem_singleton.mp member
    rfl
  · intro entry member
    cases List.mem_singleton.mp member
    simp [personNode, objectNode, stringProperty]

/-! ### The difference -/

/-- Looking for the names that a type does not require finds all of them where the property requires
more names than the type, repetitions counted, and none otherwise. So it finds what is missing
exactly if there are more names or none is missing. -/
theorem requiredOverrides_difference_iff (order : SetOrder) (found : g.node? name = some node)
    (p : Property) :
    ((requiredNames node.properties.values).length < (requiredNames p.children).length →
      IsSortedDifference (g.requiredOverrides (.difference order) p (some name))
        (requiredNames p.children) (requiredNames node.properties.values)) ∧
    ((requiredNames p.children).length ≤ (requiredNames node.properties.values).length →
      g.requiredOverrides (.difference order) p (some name) = [] ∧
      (IsSortedDifference (g.requiredOverrides (.difference order) p (some name))
        (requiredNames p.children) (requiredNames node.properties.values) ↔
        requiredNames p.children ⊆ requiredNames node.properties.values)) := by
  rw [requiredOverrides_difference order found]
  constructor
  · intro more
    rw [if_neg (by omega)]
    exact isSortedDifference_sortOn order _ _
  · intro few
    rw [if_pos few]
    exact ⟨rfl, isSortedDifference_nil_iff⟩

/-- Two things are missing, one of which is required twice. -/
theorem requiredOverrides_difference_iff_keeper :
    personGraph.node? "Person" = some personNode ∧
      personGraph.requiredOverrides (.difference .firstSeen)
        (keeper ["weight", "name", "age", "phone", "weight"]) (some "Person") =
        ["age", "weight"] ∧
      IsSortedDifference ["age", "weight"] ["weight", "name", "age", "phone", "weight"]
        ["name", "phone"] ∧
      personGraph.requiredOverrides (.difference .firstSeen) (keeper ["phone"])
        (some "Person") = [] ∧
      IsSortedDifference [] ["phone"] ["name", "phone"] := by
  obtain ⟨found_all, _⟩ := requiredOverrides_difference_iff .firstSeen personGraph_person
    (keeper ["weight", "name", "age", "phone", "weight"])
  obtain ⟨_, found_none⟩ :=
    requiredOverrides_difference_iff .firstSeen personGraph_person (keeper ["phone"])
  have computed : personGraph.requiredOverrides (.difference .firstSeen)
      (keeper ["weight", "name", "age", "phone", "weight"])
        (some "Person") = ["age", "weight"] := by
    decide +kernel
  obtain ⟨none, exact_iff⟩ := found_none (by decide)
  have difference := found_all (by decide)
  rw [computed] at difference
  rw [none] at exact_iff
  exact ⟨personGraph_person, computed, difference, none, exact_iff.mpr (by decide)⟩

/-- An age is missing, and nothing is found, since a person requires as much. -/
theorem requiredOverrides_difference_misses :
    (keeper ["age"]).children.map (·.name) = ["age"] ∧
      personGraph.requiredOverrides (.difference .firstSeen) (keeper ["age"]) (some "Person") = [] ∧
      ¬ IsSortedDifference
        (personGraph.requiredOverrides (.difference .firstSeen) (keeper ["age"]) (some "Person"))
        (requiredNames (keeper ["age"]).children)
        (requiredNames personNode.properties.values) := by
  have none : personGraph.requiredOverrides (.difference .firstSeen) (keeper ["age"])
      (some "Person") = [] := by
    decide +kernel
  refine ⟨rfl, none, ?_⟩
  rw [none, isSortedDifference_nil_iff]
  decide

/-! ### The suffix as the difference -/

variable {inline own : List String}

theorem length_filter_contains (distinct : inline.Nodup) (nodup : own.Nodup)
    (covers : own ⊆ inline) : (inline.filter own.contains).length = own.length := by
  apply List.Perm.length_eq
  refine (List.perm_ext_iff_of_nodup (distinct.filter _) nodup).mpr fun required => ?_
  rw [List.mem_filter, List.contains_iff_mem]
  exact ⟨And.right, fun member => ⟨covers member, member⟩⟩

/-- Behind as many names as are in the second list stand those that are missing in it exactly if
they sort behind all of its names. -/
theorem drop_sortOn_eq_iff {key : String → String} (apart : (inline.map key).Nodup)
    (nodup : own.Nodup) (covers : own ⊆ inline) :
    (sortOn key inline).drop own.length = sortOn key (missing inline own) ↔
      ∀ new ∈ inline, new ∉ own → ∀ old ∈ own, key old < key new := by
  have distinct_inline : inline.Nodup := apart.of_map key
  have kept : (sortOn key inline).filter (fun required => !own.contains required) =
      sortOn key (missing inline own) := by
    rw [sortOn_filter, missing, eraseDups_of_nodup distinct_inline]
  have sorted := sortOn_pairwise key inline
  rw [← kept]
  constructor
  · intro same new listed fresh old required
    -- The old name is not behind the cut, so it is in front of it, and the new one is behind.
    have behind : new ∈ (sortOn key inline).drop own.length := by
      rw [same, List.mem_filter, mem_sortOn]
      exact ⟨listed, by simpa using fresh⟩
    have ahead : old ∈ (sortOn key inline).take own.length := by
      have member : old ∈ sortOn key inline := (mem_sortOn key).mpr (covers required)
      rw [← List.take_append_drop own.length (sortOn key inline), List.mem_append] at member
      refine member.resolve_right fun wrong => ?_
      rw [same, List.mem_filter] at wrong
      simp [required] at wrong
    rw [← List.take_append_drop own.length (sortOn key inline), List.pairwise_append] at sorted
    refine lt_of_le_of_ne (sorted.2.2 old ahead new behind) fun tied => ?_
    exact fresh (List.inj_on_of_nodup_map apart (covers required) listed tied ▸ required)
  · intro later
    have ahead : (sortOn key inline).Pairwise fun a b => own.contains b = true →
        own.contains a = true := by
      refine sorted.imp_of_mem fun {a b} here _ ordered required => ?_
      by_contra fresh
      rw [List.contains_iff_mem] at required fresh
      have listed : a ∈ inline := (mem_sortOn key).mp here
      exact absurd ordered (not_le.mpr (later a listed fresh b required))
    -- The required names come first, so the cut is where the new ones begin.
    have first : ((sortOn key inline).filter own.contains).length = own.length := by
      rw [((sortOn_perm key inline).filter _).length_eq]
      exact length_filter_contains distinct_inline nodup covers
    have separated := filter_append_filter_of_pairwise ahead
    exact (congrArg (List.drop own.length) separated.symm).trans (List.drop_left' first)

/-- Where a property requires all that the type requires, the names that are missing are all
found. -/
theorem requiredOverrides_difference_of_subset (order : SetOrder) (keyed : g.Keyed)
    (found : g.node? name = some node)
    (covers : requiredNames node.properties.values ⊆ requiredNames p.children) :
    g.requiredOverrides (.difference order) p (some name) = sortOn titleCase
      (order.difference (requiredNames p.children) (requiredNames node.properties.values)) := by
  rw [requiredOverrides_difference order found]
  split
  next few =>
    -- As many different names that are all among the others leave none of them out.
    have perm := (List.subperm_of_subset (keyed.requiredNames_nodup found) covers).perm_of_length_le
      few
    have none : missing (requiredNames p.children) (requiredNames node.properties.values) = [] := by
      refine List.eq_nil_iff_forall_not_mem.mpr fun required member => ?_
      obtain ⟨listed, fresh⟩ := mem_missing.mp member
      exact fresh (perm.mem_iff.mpr listed)
    have empty := order.difference_perm (requiredNames p.children)
      (requiredNames node.properties.values)
    rw [none] at empty
    rw [empty.eq_nil]
    rfl
  · rfl

/-- Where a property requires all that the type requires and no two names share their title case,
both rules find the same names exactly if every new name sorts behind all that the type requires. -/
theorem suffix_eq_difference_iff (order : SetOrder) (keyed : g.Keyed)
    (found : g.node? name = some node)
    (apart : ((requiredNames p.children).map titleCase).Nodup)
    (covers : requiredNames node.properties.values ⊆ requiredNames p.children) :
    g.requiredOverrides .suffix p (some name) =
        g.requiredOverrides (.difference order) p (some name) ↔
      ∀ new ∈ requiredNames p.children, new ∉ requiredNames node.properties.values →
        ∀ old ∈ requiredNames node.properties.values, titleCase old < titleCase new := by
  -- Without ties it does not matter in which order the names were before they are sorted.
  have perm := order.difference_perm (requiredNames p.children)
    (requiredNames node.properties.values)
  have listed {required : String} (member : required ∈ order.difference
      (requiredNames p.children) (requiredNames node.properties.values)) :
      required ∈ requiredNames p.children :=
    (mem_missing.mp (perm.mem_iff.mp member)).1
  have sorted := sortOn_congr perm fun required here other there tied =>
    List.inj_on_of_nodup_map apart (listed here) (listed there) tied
  rw [requiredOverrides_suffix found,
    requiredOverrides_difference_of_subset order keyed found covers, sorted]
  exact drop_sortOn_eq_iff apart (keyed.requiredNames_nodup found) covers

/-- The weight and the zip code of a keeper sort last, and the age sorts first. -/
theorem suffix_eq_difference_iff_keepers :
    personGraph.Keyed ∧ personGraph.node? "Person" = some personNode ∧
      requiredNames personNode.properties.values = ["name", "phone"] ∧
      personGraph.requiredOverrides .suffix (keeper ["zip", "phone", "weight", "name"])
          (some "Person") =
        personGraph.requiredOverrides (.difference .firstSeen)
          (keeper ["zip", "phone", "weight", "name"]) (some "Person") ∧
      personGraph.requiredOverrides .suffix (keeper ["zip", "phone", "age", "name"])
          (some "Person") ≠
        personGraph.requiredOverrides (.difference .firstSeen)
          (keeper ["zip", "phone", "age", "name"]) (some "Person") := by
  have last := suffix_eq_difference_iff .firstSeen (p := keeper ["zip", "phone", "weight", "name"])
    personGraph_keyed personGraph_person (by decide +kernel) (by decide)
  have first := suffix_eq_difference_iff .firstSeen (p := keeper ["zip", "phone", "age", "name"])
    personGraph_keyed personGraph_person (by decide +kernel) (by decide)
  exact ⟨personGraph_keyed, personGraph_person, rfl, last.mpr (by decide +kernel),
    first.not.mpr (by decide +kernel)⟩

/-! ### The order of declarations -/

/-- Two graphs declare a type with its properties in any order, and two properties have their inline
children in any order. -/
structure ReorderedUse (g g' : TypeGraph) (p p' : Property) (name : String) : Prop where
  type : ∃ node node', g.node? name = some node ∧ g'.node? name = some node' ∧
    node.properties.entries.Perm node'.properties.entries
  inline : p.children.Perm p'.children

/-- The list of names is the same for every order of the declarations. -/
def ForgetsOrder (g : TypeGraph) (rule : OverrideRule) (p : Property) (name : String) : Prop :=
  ∀ g' p', ReorderedUse g g' p p' name →
    g'.requiredOverrides rule p' (some name) = g.requiredOverrides rule p (some name)

/-- Either rule lists names with the same title cases in every order. -/
theorem map_requiredOverrides_reordered (moved : ReorderedUse g g' p p' name)
    (rule : OverrideRule) :
    (g'.requiredOverrides rule p' (some name)).map titleCase =
      (g.requiredOverrides rule p (some name)).map titleCase := by
  obtain ⟨node, node', found, found', entries⟩ := moved.type
  have own := requiredNames_perm (entries.map Prod.snd)
  have inline := requiredNames_perm moved.inline
  cases rule with
  | suffix =>
    rw [requiredOverrides_suffix found, requiredOverrides_suffix found', List.map_drop,
      List.map_drop, map_sortOn, map_sortOn, sortNames_congr (inline.map titleCase), Table.values,
      Table.values, own.length_eq]
  | difference order =>
    rw [requiredOverrides_difference order found, requiredOverrides_difference order found',
      Table.values, Table.values, inline.length_eq, own.length_eq]
    split
    · rfl
    · rw [map_sortOn, map_sortOn,
        sortNames_congr ((order.difference_perm_of_perm inline own).map titleCase)]

/-- The difference has the same names in every order. -/
theorem requiredOverrides_difference_perm (order : SetOrder) (moved : ReorderedUse g g' p p' name) :
    (g'.requiredOverrides (.difference order) p' (some name)).Perm
      (g.requiredOverrides (.difference order) p (some name)) := by
  obtain ⟨node, node', found, found', entries⟩ := moved.type
  have own := requiredNames_perm (entries.map Prod.snd)
  have inline := requiredNames_perm moved.inline
  rw [requiredOverrides_difference order found, requiredOverrides_difference order found',
    Table.values, Table.values, inline.length_eq, own.length_eq]
  split
  · exact .refl _
  · exact (sortOn_perm _ _).trans
      ((order.difference_perm_of_perm inline own).symm.trans (sortOn_perm _ _).symm)

/-- What is missing does not depend on the order of the properties of the type. -/
theorem requiredOverrides_reordered_type
    (moved : ReorderedUse g g' p p name) (rule : OverrideRule) :
    g'.requiredOverrides rule p (some name) = g.requiredOverrides rule p (some name) := by
  obtain ⟨node, node', found, found', entries⟩ := moved.type
  have own := requiredNames_perm (entries.map Prod.snd)
  cases rule with
  | suffix =>
    rw [requiredOverrides_suffix found, requiredOverrides_suffix found', Table.values,
      Table.values, own.length_eq]
  | difference order =>
    have same := order.congr (requiredNames p.children) _ _ fun _ => own.mem_iff
    rw [requiredOverrides_difference order found, requiredOverrides_difference order found',
      Table.values, Table.values, same, own.length_eq]

/-- The names behind those that the type requires are the same in every order exactly if none of
them shares its title case with another name that the property requires. -/
theorem forgetsOrder_suffix_iff (found : g.node? name = some node)
    (distinct : (p.children.map (·.name)).Nodup) :
    g.ForgetsOrder .suffix p name ↔
      ∀ listed ∈ g.requiredOverrides .suffix p (some name), ∀ other ∈ requiredNames p.children,
        titleCase other = titleCase listed → other = listed := by
  rw [requiredOverrides_suffix found]
  constructor
  · intro fixed listed member other required tied
    have backwards : ReorderedUse g g p { p with children := p.children.reverse } name :=
      ⟨⟨node, node, found, found, .refl _⟩, (List.reverse_perm p.children).symm⟩
    have same := fixed g _ backwards
    rw [requiredOverrides_suffix found, requiredOverrides_suffix found,
      requiredNames_reverse] at same
    exact eq_of_drop_sortOn_reverse (requiredNames_nodup distinct) same member required tied
  · intro apart g' p' moved
    obtain ⟨node₁, node', found₁, found', entries⟩ := moved.type
    cases found.symm.trans found₁
    have own := requiredNames_perm (entries.map Prod.snd)
    rw [requiredOverrides_suffix found', requiredOverrides_suffix found, Table.values,
      ← own.length_eq]
    exact (drop_sortOn_congr (requiredNames_perm moved.inline) apart).symm

/-- The missing names are the same in every order if no two of them share their title case. -/
theorem forgetsOrder_difference (order : SetOrder)
    (apart : ((g.requiredOverrides (.difference order) p (some name)).map titleCase).Nodup) :
    g.ForgetsOrder (.difference order) p name := by
  intro g' p' moved
  have perm := requiredOverrides_difference_perm order moved
  refine eq_of_map_key_eq (map_requiredOverrides_reordered moved (.difference order)) ?_
  intro required here other there tied
  exact List.inj_on_of_nodup_map apart there (perm.mem_iff.mp here) tied

/-- The order of the properties of a type never matters, and the order of the inline children with
different names does not change the title cases on the list. By the first rule the list itself is
the same for every order exactly if no name on it shares its title case with another name that the
property requires. By the second rule it always has the same names, and it is the same if no two of
them share their title case. -/
theorem requiredOverrides_reordered (found : g.node? name = some node)
    (distinct : (p.children.map (·.name)).Nodup) :
    (∀ rule g', ReorderedUse g g' p p name →
      g'.requiredOverrides rule p (some name) = g.requiredOverrides rule p (some name)) ∧
    (∀ rule g' p', ReorderedUse g g' p p' name →
      (g'.requiredOverrides rule p' (some name)).map titleCase =
        (g.requiredOverrides rule p (some name)).map titleCase) ∧
    (g.ForgetsOrder .suffix p name ↔
      ∀ listed ∈ g.requiredOverrides .suffix p (some name), ∀ other ∈ requiredNames p.children,
        titleCase other = titleCase listed → other = listed) ∧
    (∀ order g' p', ReorderedUse g g' p p' name →
      (g'.requiredOverrides (.difference order) p' (some name)).Perm
        (g.requiredOverrides (.difference order) p (some name))) ∧
    (∀ order, ((g.requiredOverrides (.difference order) p (some name)).map titleCase).Nodup →
      g.ForgetsOrder (.difference order) p name) :=
  ⟨fun rule _ moved => requiredOverrides_reordered_type moved rule,
    fun rule _ _ moved => map_requiredOverrides_reordered moved rule,
    forgetsOrder_suffix_iff found distinct,
    fun order _ _ moved => requiredOverrides_difference_perm order moved,
    forgetsOrder_difference⟩

/-- Two names with the same title case do no harm where they are cut away. -/
theorem requiredOverrides_reordered_keepers :
    personGraph.node? "Person" = some personNode ∧
      ((keeper ["nick", "weight", "Nick"]).children.map (·.name)).Nodup ∧
      personGraph.requiredOverrides .suffix (keeper ["nick", "weight", "Nick"]) (some "Person") =
        ["weight"] ∧
      personGraph.ForgetsOrder .suffix (keeper ["nick", "weight", "Nick"]) "Person" ∧
      personGraph.requiredOverrides (.difference .firstSeen) (keeper ["weight", "name", "age"])
        (some "Person") = ["age", "weight"] ∧
      personGraph.ForgetsOrder (.difference .firstSeen) (keeper ["weight", "name", "age"])
        "Person" := by
  have distinct : ((keeper ["nick", "weight", "Nick"]).children.map (·.name)).Nodup := by decide
  have distinct' : ((keeper ["weight", "name", "age"]).children.map (·.name)).Nodup := by decide
  obtain ⟨_, _, suffix, _, _⟩ := requiredOverrides_reordered personGraph_person distinct
  obtain ⟨_, _, _, _, difference⟩ := requiredOverrides_reordered personGraph_person distinct'
  exact ⟨personGraph_person, distinct, by decide +kernel, suffix.mpr (by decide +kernel),
    by decide +kernel, difference .firstSeen (by decide +kernel)⟩

/-- Of two names with the same title case, the one that is declared last is on the list. -/
theorem requiredOverrides_ordered :
    ((keeper ["name", "weight", "Weight"]).children.map (·.name)).Nodup ∧
      ReorderedUse personGraph personGraph (keeper ["name", "weight", "Weight"])
        (keeper ["name", "Weight", "weight"]) "Person" ∧
      personGraph.requiredOverrides .suffix (keeper ["name", "weight", "Weight"])
        (some "Person") = ["Weight"] ∧
      personGraph.requiredOverrides .suffix (keeper ["name", "Weight", "weight"])
        (some "Person") = ["weight"] := by
  refine ⟨by decide, ⟨⟨personNode, personNode, rfl, rfl, .refl _⟩, ?_⟩, by decide +kernel,
    by decide +kernel⟩
  exact .cons _ (.swap _ _ _)

end TypeGraph

end RamlTypes
