import RamlTypes.Proofs.Outcomes
import RamlTypes.Proofs.Tables
import RamlTypes.Session

/-!
# Remembered answers

A memory is faithful to a graph if all that it remembers is what the graph gives. Then it makes no
difference whether something is remembered or computed: each computation ends as it would without a
memory, and what it adds to the memory is faithful again, also where it fails on the way. As a new
session remembers nothing, a question has the same answer at any point of any session.
-/
namespace RamlTypes

variable {g : TypeGraph}

/-! ### Children -/

/-- Collecting adds the types below a name behind those that it has already. -/
theorem TypeGraph.find?_foldl_enterChild (entries : List (String × TypeNode))
    (index : Table String (List String)) (name : String) :
    ((entries.foldl enterChild index).find? name).getD [] =
      (index.find? name).getD [] ++
        (entries.filter fun entry => entry.2.parent = some name).map Prod.fst := by
  induction entries generalizing index with
  | nil => simp
  | cons entry rest ih =>
    rw [List.foldl_cons, ih, enterChild]
    cases up : entry.2.parent with
    | none => simp [up]
    | some parent =>
      by_cases here : parent = name
      · simp [up, here, Table.find?_insert]
      · simp [up, here, Table.find?_insert]

/-- The index holds the children that a pass over the graph for the one name finds. -/
theorem TypeGraph.find?_childrenIndex (g : TypeGraph) (name : String) :
    (g.childrenIndex.find? name).getD [] = g.children name := by
  have collected := find?_foldl_enterChild g.nodes.entries .empty name
  have nothing : (Table.empty : Table String (List String)).find? name = none := rfl
  rw [nothing, Option.getD_none, List.nil_append] at collected
  rw [childrenIndex, Table.find?_map, children, ← collected]
  cases (g.nodes.entries.foldl enterChild .empty).find? name <;> rfl

/-! ### Faithful memories -/

/-- All that is remembered is what the graph gives. So a remembered chain is one that ends. -/
structure Memory.Faithful (g : TypeGraph) (m : Memory) : Prop where
  chains : ∀ name chain, m.chains.find? name = some chain → g.chain name = .ok chain
  children : ∀ index, m.children = some index → index = g.childrenIndex
  used : ∀ names, m.used = some names → names = g.usedNames
  unions : ∀ sets, m.unions = some sets → sets = g.unionMembers

theorem Memory.Faithful.empty (g : TypeGraph) : Memory.empty.Faithful g := by
  constructor <;> intros <;> contradiction

/-- With every faithful memory the computation ends as the one without a memory, and leaves a
faithful memory behind, whether it returns or fails. -/
def Recalling.Yields {α : Type} (g : TypeGraph) (x : Recalling α) (y : Logged α) : Prop :=
  ∀ m : Memory, m.Faithful g → (x m).1 = y ∧ (x m).2.Faithful g

section Logged

variable {α β : Type}

theorem Logged.ofExcept_bind (x : Except Fault α) (f : α → Except Fault β) :
    Logged.ofExcept (x >>= f) = Logged.ofExcept x >>= fun a => Logged.ofExcept (f a) := by
  cases x <;> rfl

theorem Logged.ofExcept_map (f : α → β) (x : Except Fault α) :
    Logged.ofExcept (f <$> x) = f <$> Logged.ofExcept x := by
  cases x <;> rfl

end Logged

namespace Recalling

variable {α β : Type}

theorem yields_ofLogged (x : Logged α) : Yields g (ofLogged x) x := fun _ sound => ⟨rfl, sound⟩

theorem yields_pure (a : α) : Yields g (pure a) (pure a) := yields_ofLogged _

theorem Yields.bind {x : Recalling α} {y : Logged α} {f : α → Recalling β} {h : α → Logged β}
    (first : Yields g x y) (next : ∀ a, y.outcome = .ok a → Yields g (f a) (h a)) :
    Yields g (x >>= f) (y >>= h) := by
  intro m sound
  obtain ⟨same, sound'⟩ := first m sound
  change (Recalling.bind x f m).1 = Logged.bind y h ∧ (Recalling.bind x f m).2.Faithful g
  rw [← same] at next ⊢
  unfold Recalling.bind Logged.bind
  generalize x m = ended at next sound' ⊢
  obtain ⟨⟨log, fault | a⟩, m'⟩ := ended
  -- A failure ends both, and what is remembered by then stays.
  · exact ⟨rfl, sound'⟩
  · obtain ⟨same', sound''⟩ := next a rfl m' sound'
    refine ⟨?_, sound''⟩
    change (⟨log ++ (f a m').1.log, (f a m').1.outcome⟩ : Logged β) =
      ⟨log ++ (h a).log, (h a).outcome⟩
    rw [same']

/-- A value that is computed first is used as it is. -/
theorem Yields.bind_value {x : Recalling α} {a : α} {f : α → Recalling β} {z : Logged β}
    (first : Yields g x (pure a)) (next : Yields g (f a) z) : Yields g (x >>= f) z := by
  have ends : Yields g (x >>= f) (pure a >>= fun _ => z) := by
    refine first.bind fun b same => ?_
    cases same
    exact next
  rwa [pure_bind] at ends

theorem Yields.map {x : Recalling α} {y : Logged α} (ends : Yields g x y) (f : α → β) :
    Yields g (f <$> x) (f <$> y) :=
  ends.bind fun a _ => yields_pure (f a)

theorem Yields.mapM {f : α → Recalling β} {h : α → Logged β} (each : ∀ a, Yields g (f a) (h a))
    (xs : List α) : Yields g (xs.mapM f) (xs.mapM h) := by
  -- Both traversals collect the results in front of those that they have.
  have collects (done : List β) :
      Yields g (List.mapM.loop f xs done) (List.mapM.loop h xs done) := by
    induction xs generalizing done with
    | nil => exact yields_pure _
    | cons a rest ih => exact (each a).bind fun b _ => ih (b :: done)
  exact collects []

theorem Yields.congr {x : Recalling α} {y z : Logged α} (ends : Yields g x y) (same : y = z) :
    Yields g x z := same ▸ ends

/-- What is computed when it is first asked for is always the same. -/
theorem yields_once {known? : Memory → Option α} {remember : α → Memory → Memory} {value : α}
    (recalled : ∀ m : Memory, m.Faithful g → ∀ a, known? m = some a → a = value)
    (remembered : ∀ m : Memory, m.Faithful g → (remember value m).Faithful g) :
    Yields g (once known? remember value) (pure value) := by
  intro m sound
  unfold once
  cases known : known? m with
  | none => exact ⟨rfl, remembered m sound⟩
  | some a =>
    cases recalled m sound a known
    exact ⟨rfl, sound⟩

/-! ### Hierarchy -/

theorem yields_chain (g : TypeGraph) (name : String) :
    Yields g (chain g name) (.ofExcept (g.chain name)) := by
  intro m sound
  unfold chain
  cases known : m.chains.find? name with
  | some path =>
    rw [sound.chains name path known]
    exact ⟨rfl, sound⟩
  | none =>
    cases walked : g.chain name with
    | error fault => exact ⟨rfl, sound⟩
    | ok path =>
      refine ⟨rfl, { sound with chains := fun other path' found => ?_ }⟩
      rw [Table.find?_insert] at found
      split at found
      next same =>
        cases found
        exact same ▸ walked
      · exact sound.chains other path' found

theorem yields_children (g : TypeGraph) (name : String) :
    Yields g (children g name) (pure (g.children name)) := by
  have index : Yields g (once (·.children) (fun index m => { m with children := some index })
      g.childrenIndex) (pure g.childrenIndex) := by
    apply yields_once
    · exact fun m sound => sound.children
    · exact fun m sound => { sound with children := fun _ same => (Option.some.inj same).symm }
  rw [← g.find?_childrenIndex]
  exact index.bind fun index _ => yields_pure _

/-! ### Questions about the hierarchy -/

theorem yields_ancestors (g : TypeGraph) (name : String) :
    Yields g (ancestors g name) (.ofExcept (g.hierarchy.ancestors name)) := by
  refine ((yields_chain g name).map _).congr ?_
  rw [Hierarchy.ancestors, Logged.ofExcept_map]
  rfl

theorem yields_effectiveProperties (g : TypeGraph) (name : String) :
    Yields g (effectiveProperties g name) (.ofExcept (g.hierarchy.effectiveProperties name)) := by
  refine ((yields_chain g name).bind fun path _ => yields_ofLogged _).congr ?_
  rw [Hierarchy.effectiveProperties, Logged.ofExcept_bind]
  rfl

theorem yields_isMember (g : TypeGraph) (name : String) (p : Property) :
    Yields g (isMember g name p) (.ofExcept (g.hierarchy.isMember name p)) := by
  have graph : g.hierarchy.graph = g := rfl
  rw [isMember, Hierarchy.isMember, graph]
  cases g.parent? name with
  | none => exact yields_pure true
  | some parent =>
    dsimp only
    split
    · exact yields_pure true
    · rw [Logged.ofExcept_bind]
      refine (yields_effectiveProperties g parent).bind fun properties _ => ?_
      cases properties.find? p.name with
      | none => exact yields_pure true
      | some inherited => exact yields_pure _

theorem yields_memberAncestors (g : TypeGraph) (member : String) :
    Yields g (memberAncestors g member) (.ofExcept (g.hierarchy.memberAncestors member)) := by
  have graph : g.hierarchy.graph = g := rfl
  rw [memberAncestors, Hierarchy.memberAncestors, graph]
  split
  · exact yields_ancestors g member
  · exact yields_pure []

theorem yields_commonAncestor (g : TypeGraph) (universal : Value) (members : List String) :
    Yields g (commonAncestor g universal members)
      (g.hierarchy.commonAncestor universal members) := by
  refine (Yields.mapM (yields_memberAncestors g) members.eraseDups).bind fun chains _ => ?_
  cases Hierarchy.nearestShared chains with
  | some ancestor => exact yields_pure (Value.text ancestor)
  | none =>
    dsimp only
    split
    · exact (yields_ofLogged _).bind fun _ _ => yields_pure universal
    · exact yields_pure universal

/-! ### Questions about mappings -/

section Mapping

variable {primitive? : String → Option String} {universal : Value}

/-- Both look the text up first, so they can differ only in what they do if it is not built in. -/
theorem yields_lookup {raw : String} {x : Recalling TargetType} {y : Logged TargetType}
    (otherwise : Yields g x y) :
    Yields g
      (match primitive? raw with
        | some primitive => pure (.primitive primitive)
        | none => x)
      (match primitive? raw with
        | some primitive => pure (.primitive primitive)
        | none => y) := by
  cases primitive? raw with
  | some primitive => exact yields_pure _
  | none => exact otherwise

mutual

theorem yields_mapType (g : TypeGraph) : ∀ type : TypeExpr,
    Yields g (mapType g primitive? universal type)
      ((TypeMapper.mk primitive? g.hierarchy universal).mapType type)
  | .named raw name qualifier => by
    rw [mapType, TypeMapper.mapType]
    refine yields_lookup ?_
    split
    · exact yields_ofLogged _
    · exact yields_pure _
  | .array raw dimensions element => by
    rw [mapType, TypeMapper.mapType]
    refine yields_lookup ?_
    split
    · exact yields_ofLogged _
    · exact (yields_mapType g element).bind fun target _ => yields_pure _
  | .map raw value => by
    rw [mapType, TypeMapper.mapType]
    exact yields_lookup (yields_ofLogged _)
  | .union raw members => by
    rw [mapType, TypeMapper.mapType]
    refine yields_lookup ((yields_mapTypes g members).bind fun targets _ => ?_)
    exact (yields_commonAncestor g universal _).bind fun ancestor _ => yields_pure _

theorem yields_mapTypes (g : TypeGraph) : ∀ types : List TypeExpr,
    Yields g (mapTypes g primitive? universal types)
      ((TypeMapper.mk primitive? g.hierarchy universal).mapTypes types)
  | [] => by
    rw [mapTypes, TypeMapper.mapTypes]
    exact yields_pure []
  | type :: rest => by
    rw [mapTypes, TypeMapper.mapTypes]
    refine (yields_mapType g type).bind fun target _ => ?_
    exact (yields_mapTypes g rest).bind fun targets _ => yields_pure _

end

theorem yields_mapProperty (g : TypeGraph) (owner : String) (p : Property) :
    Yields g (mapProperty g primitive? universal owner p)
      ((TypeMapper.mk primitive? g.hierarchy universal).mapProperty owner p) := by
  rw [mapProperty, TypeMapper.mapProperty]
  split
  · exact yields_pure _
  · exact yields_mapType g p.type

end Mapping

/-! ### Questions about the usage -/

theorem yields_used (g : TypeGraph) : Yields g (used g) (pure g.usedNames) := by
  apply yields_once
  · exact fun m sound => sound.used
  · exact fun m sound => { sound with used := fun _ same => (Option.some.inj same).symm }

theorem yields_unions (g : TypeGraph) : Yields g (unions g) (pure g.unionMembers) := by
  apply yields_once
  · exact fun m sound => sound.unions
  · exact fun m sound => { sound with unions := fun _ same => (Option.some.inj same).symm }

theorem yields_isUsed (g : TypeGraph) (name : String) :
    Yields g (isUsed g name) (pure (g.usedNames.contains name)) :=
  (yields_used g).bind fun _ _ => yields_pure _

theorem yields_isAbstract (g : TypeGraph) (annotations name : String) :
    Yields g (isAbstract g name)
      (pure ((Dispatch.mk g.hierarchy g.usage annotations).isAbstract name)) := by
  have graph : g.hierarchy.graph = g := rfl
  have below : g.hierarchy.children name = g.children name := rfl
  have usage : g.usage.used = g.usedNames := rfl
  refine (yields_children g name).bind_value ?_
  rw [Dispatch.isAbstract, Dispatch.isUsed, graph, below, usage]
  -- What is left out could not change the answer any more.
  cases (g.children name).isEmpty with
  | true => exact yields_pure false
  | false =>
    refine (yields_isUsed g name).bind_value ?_
    cases g.usedNames.contains name with
    | true => exact yields_pure false
    | false => exact yields_pure _

theorem yields_needsDeserializer (g : TypeGraph) (annotations name : String) :
    Yields g (needsDeserializer g annotations name)
      (pure ((Dispatch.mk g.hierarchy g.usage annotations).needsDeserializer name)) := by
  have below : g.hierarchy.children name = g.children name := rfl
  have usage : g.usage.unions = g.unionMembers := rfl
  rw [needsDeserializer, Dispatch.needsDeserializer]
  by_cases plain : annotations = ""
  · rw [if_pos plain]
    simpa [plain] using yields_pure false
  · rw [if_neg plain]
    have styled : (annotations != "") = true := by simpa using plain
    rw [styled, Bool.true_and]
    refine (yields_isAbstract g annotations name).bind_value ?_
    cases (Dispatch.mk g.hierarchy g.usage annotations).isAbstract name with
    | false => exact yields_pure false
    | true =>
      refine (yields_children g name).bind_value ((yields_unions g).bind_value ?_)
      rw [Bool.true_and, Usage.covers, below, usage]
      exact yields_pure _

theorem yields_deserializerTarget (g : TypeGraph) (annotations name : String) :
    Yields g (deserializerTarget g annotations name)
      (pure ((Dispatch.mk g.hierarchy g.usage annotations).deserializerTarget name)) := by
  have graph : g.hierarchy.graph = g := rfl
  refine (yields_needsDeserializer g annotations name).bind_value ?_
  rw [Dispatch.deserializerTarget, graph]
  cases (Dispatch.mk g.hierarchy g.usage annotations).needsDeserializer name with
  | true => exact yields_pure _
  | false =>
    cases g.parent? name with
    | none => exact yields_pure ""
    | some parent =>
      exact (yields_needsDeserializer g annotations parent).bind_value (yields_pure _)

end Recalling

/-! ### Sessions -/

namespace Session

/-- The memory of the session is faithful to its graph. -/
def Faithful (s : Session) : Prop := s.memory.Faithful s.graph

theorem yields_remembered (s : Session) (q : Query) :
    Recalling.Yields s.graph (s.remembered q) (s.resolver.answer q) := by
  cases q with
  | chain name =>
    exact ((Recalling.yields_chain s.graph name).map _).congr (Logged.ofExcept_map _ _).symm
  | ancestors name =>
    exact ((Recalling.yields_ancestors s.graph name).map _).congr (Logged.ofExcept_map _ _).symm
  | children name => exact (Recalling.yields_children s.graph name).map _
  | effective name =>
    exact ((Recalling.yields_effectiveProperties s.graph name).map _).congr
      (Logged.ofExcept_map _ _).symm
  | isMember name property =>
    exact ((Recalling.yields_isMember s.graph name property).map _).congr
      (Logged.ofExcept_map _ _).symm
  | commonAncestor members =>
    exact (Recalling.yields_commonAncestor s.graph s.config.universalBaseType members).map _
  | mapType text => exact (Recalling.yields_mapType s.graph (.parse text)).map _
  | mapProperty owner property =>
    exact (Recalling.yields_mapProperty s.graph owner property).map _
  | usedTypes => exact (Recalling.yields_used s.graph).map _
  | unionSets => exact (Recalling.yields_unions s.graph).map _
  | isUsed name => exact (Recalling.yields_isUsed s.graph name).map _
  | isAbstract name =>
    exact (Recalling.yields_isAbstract s.graph s.config.annotations name).map _
  | needsDeserializer name =>
    exact (Recalling.yields_needsDeserializer s.graph s.config.annotations name).map _
  | deserializerTarget name =>
    exact (Recalling.yields_deserializerTarget s.graph s.config.annotations name).map _
  | _ => exact Recalling.yields_ofLogged _

/-- An answer is the one without a memory, and the memory stays faithful. -/
theorem ask_of_faithful {s : Session} (sound : s.Faithful) (q : Query) :
    (s.ask q).1 = s.resolver.answer q ∧ (s.ask q).2.Faithful ∧
      (s.ask q).2.resolver = s.resolver := by
  obtain ⟨same, sound'⟩ := yields_remembered s q s.memory sound
  exact ⟨same, sound', rfl⟩

theorem askAll_of_faithful {s : Session} (sound : s.Faithful) (queries : List Query) :
    s.askAll queries = queries.map s.resolver.answer := by
  induction queries generalizing s with
  | nil => rfl
  | cons q rest ih =>
    obtain ⟨same, sound', unchanged⟩ := ask_of_faithful sound q
    change (s.ask q).1 :: (s.ask q).2.askAll rest = _
    rw [ih sound', unchanged, same, List.map_cons]

/-- In a session each question is answered as it is in a new session, whatever was asked before and
however that ended. -/
theorem askAll_start (primitive? : String → Option String) (config : Config) (g : TypeGraph)
    (queries : List Query) :
    (start primitive? config g).askAll queries =
        queries.map (fun q => ((start primitive? config g).ask q).1) ∧
      ∀ q, ((start primitive? config g).ask q).1 =
        (Resolver.ofGraph primitive? config g).answer q := by
  have sound : (start primitive? config g).Faithful := .empty g
  have alone (q : Query) : ((start primitive? config g).ask q).1 =
      (Resolver.ofGraph primitive? config g).answer q := (ask_of_faithful sound q).1
  refine ⟨?_, alone⟩
  rw [askAll_of_faithful sound]
  exact List.map_congr_left fun q _ => (alone q).symm

end Session

end RamlTypes
