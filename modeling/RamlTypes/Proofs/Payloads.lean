import RamlTypes.Proofs.BodyTypes
import RamlTypes.Proofs.Dispatching

/-!
# Payloads are used

A payload is declared in the body of a request or a response, anywhere in the resources of a
document. Its type is read from the body, collected by the methods and found again by the walk over
all resources, and then every name in it is used. So a type that is exchanged is never abstract,
however deep the resource is. A body gives one type only: where it has several media types, the
types of the others are not used.
-/
namespace RamlTypes

namespace Schema

/-- A method of the resource, or of one nested in it. -/
inductive HasMethod : Entries → Entries → Prop where
  | here {resource method : Entries} {key : String}
      (listed : (.text key, .map method) ∈ resource) (verb : Text.lower key ∈ verbs) :
      HasMethod resource method
  | nested {resource child method : Entries} {key : String}
      (listed : (.text key, .map child) ∈ resource) (slashed : isResourceKey key = true)
      (inside : HasMethod child method) : HasMethod resource method

/-- A method at any depth of the resources of a document. -/
def DeclaresMethod (document method : Entries) : Prop :=
  ∃ key resource, (.text key, .map resource) ∈ document ∧ isResourceKey key = true ∧
    HasMethod resource method

/-- The body of the request of a method, or of a response that is a mapping. -/
inductive HasBody : Entries → Value → Prop where
  | request {method : Entries} {body : Value} (found : Entries.facet? "body" method = some body) :
      HasBody method body
  | response {method responses response : Entries} {code : Scalar} {body : Value}
      (found : Entries.facet? "responses" method = some (.map responses))
      (listed : (code, .map response) ∈ responses)
      (present : Entries.facet? "body" response = some body) : HasBody method body

/-! ### Methods -/

theorem mem_responseTypes {path : Path} {responses response : Entries} {types : List String}
    {code : Scalar} {body : Value} {type : String}
    (read : responseTypes path responses = .ok types)
    (listed : (code, .map response) ∈ responses)
    (present : Entries.facet? "body" response = some body)
    (declared : DeclaresPayload body type) (nonempty : type ≠ "") : type ∈ types := by
  fun_induction responseTypes path responses generalizing types with
  | case1 => cases listed
  | case2 code' response' rest ih =>
    simp only [bind_ok_iff] at read
    obtain ⟨_, _, first, chosen, later, there, returned⟩ := read
    cases returned
    -- A response without a type adds nothing to the list, and this one has a type.
    rcases List.mem_cons.mp listed with same | behind
    · cases same
      rw [present] at chosen
      obtain rfl := bodyType_of_declaresPayload declared chosen
      simp [nonempty]
    · have member := ih there behind
      split
      · exact member
      · exact List.mem_cons_of_mem _ member
  | case3 entry rest noMap ih =>
    rcases List.mem_cons.mp listed with rfl | behind
    · exact absurd rfl (noMap _ _)
    · exact ih read behind

theorem mem_payloadTypes {path : Path} {key : String} {entries : Entries} {method : Method}
    {body : Value} {type : String} (read : readMethod path key (.map entries) = .ok method)
    (present : HasBody entries body) (declared : DeclaresPayload body type)
    (nonempty : type ≠ "") : type ∈ method.payloadTypes := by
  simp only [readMethod, pure, Except.pure, ok_bind, bind_ok_iff] at read
  obtain ⟨_, _, requestType, request, responses, sectioned, types, collected, returned⟩ := read
  cases returned
  simp only [Method.payloadTypes, List.mem_filter, decide_eq_true_iff]
  refine ⟨?_, nonempty⟩
  cases present with
  | request found =>
    rw [found] at request
    obtain rfl := bodyType_of_declaresPayload declared request
    exact List.mem_cons_self
  | response found listed present =>
    rw [found] at sectioned
    cases sectioned
    exact List.mem_cons_of_mem _ (mem_responseTypes collected listed present declared nonempty)

/-! ### Resources -/

theorem isResourceKey_of_verb {key : String} (verb : Text.lower key ∈ verbs) :
    isResourceKey key = false := by
  cases slashed : isResourceKey key with
  | false => rfl
  | true =>
    -- Lower case keeps the slash, and no verb starts with one.
    obtain ⟨rest, split⟩ := List.head?_eq_some_iff.mp (of_decide_eq_true slashed)
    rw [Text.lower, split, List.map_cons] at verb
    have start : ∀ word ∈ verbs, word.toList.head? ≠ some '/' := by decide
    exact absurd (by rw [String.toList_ofList]; rfl) (start _ verb)

/-- Under a key of a nested resource there is one of the children, and under a verb one of the
methods. -/
structure IsReadInto (uri key : String) (value : Value) (methods : List Method)
    (children : List Resource) : Prop where
  child : isResourceKey key = true → ∃ child ∈ children, readResource key value = .ok child
  method : Text.lower key ∈ verbs →
    ∃ method ∈ methods, readMethod [uri, key] key value = .ok method

theorem IsReadInto.mono {uri key : String} {value : Value} {methods methods' : List Method}
    {children children' : List Resource} (into : IsReadInto uri key value methods children)
    (more : methods ⊆ methods') (more' : children ⊆ children') :
    IsReadInto uri key value methods' children' := by
  constructor
  · intro slashed
    obtain ⟨child, member, made⟩ := into.child slashed
    exact ⟨child, more' member, made⟩
  · intro verb
    obtain ⟨method, member, made⟩ := into.method verb
    exact ⟨method, more member, made⟩

/-- Reading one more member keeps what the others are read into. -/
theorem readMembers_cons {uri : String} {entry : Scalar × Value} {rest : Entries}
    {methods : List Method} {children : List Resource}
    (read : readMembers uri (entry :: rest) = .ok (methods, children)) :
    (∀ key value, entry = (.text key, value) → IsReadInto uri key value methods children) ∧
    ∃ methods' children', readMembers uri rest = .ok (methods', children') ∧
      methods' ⊆ methods ∧ children' ⊆ children := by
  obtain ⟨scalar, value⟩ := entry
  cases scalar with
  | text key =>
    rw [readMembers] at read
    split at read
    next slashed =>
      simp only [bind_ok_iff, Prod.exists] at read
      obtain ⟨child, here, methods', children', there, returned⟩ := read
      cases returned
      refine ⟨?_, _, _, there, List.Subset.refl _, List.subset_cons_self _ _⟩
      rintro _ _ ⟨⟩
      refine ⟨fun _ => ⟨child, List.mem_cons_self, here⟩, fun verb => ?_⟩
      simp [isResourceKey_of_verb verb] at slashed
    next plain =>
      split at read
      next verb =>
        simp only [bind_ok_iff, Prod.exists] at read
        obtain ⟨method, here, methods', children', there, returned⟩ := read
        cases returned
        refine ⟨?_, _, _, there, List.subset_cons_self _ _, List.Subset.refl _⟩
        rintro _ _ ⟨⟩
        exact ⟨fun slashed => absurd slashed plain, fun _ => ⟨method, List.mem_cons_self, here⟩⟩
      next other =>
        refine ⟨?_, methods, children, read, List.Subset.refl _, List.Subset.refl _⟩
        rintro _ _ ⟨⟩
        exact ⟨fun slashed => absurd slashed plain, fun verb => absurd verb other⟩
  -- Other keys are passed over.
  | null | bool | int | float | timestamp | bytes =>
    rw [readMembers] at read
    · exact ⟨by rintro _ _ ⟨⟩, methods, children, read, List.Subset.refl _, List.Subset.refl _⟩
    · simp

theorem isReadInto_of_readMembers {uri key : String} {entries : Entries} {value : Value}
    {methods : List Method} {children : List Resource}
    (read : readMembers uri entries = .ok (methods, children))
    (listed : (.text key, value) ∈ entries) : IsReadInto uri key value methods children := by
  induction entries generalizing methods children with
  | nil => cases listed
  | cons entry rest ih =>
    obtain ⟨here, methods', children', there, more, more'⟩ := readMembers_cons read
    rcases List.mem_cons.mp listed with same | behind
    · exact here key value same.symm
    · exact (ih there behind).mono more more'

theorem mem_of_readResources {key : String} {document : Entries} {value : Value}
    {resources : List Resource} (read : readResources document = .ok resources)
    (listed : (.text key, value) ∈ document) (slashed : isResourceKey key = true) :
    ∃ resource ∈ resources, readResource key value = .ok resource := by
  fun_induction readResources document generalizing resources with
  | case1 => cases listed
  | case2 key' value' rest slashed' ih =>
    simp only [bind_ok_iff] at read
    obtain ⟨first, here, others, there, returned⟩ := read
    cases returned
    rcases List.mem_cons.mp listed with same | behind
    · cases same
      exact ⟨first, List.mem_cons_self, here⟩
    · obtain ⟨resource, member, found⟩ := ih there behind
      exact ⟨resource, List.mem_cons_of_mem _ member, found⟩
  | case3 key' value' rest plain ih =>
    rcases List.mem_cons.mp listed with same | behind
    · cases same
      exact absurd slashed plain
    · exact ih read behind
  | case4 entry rest noText ih =>
    rcases List.mem_cons.mp listed with rfl | behind
    · exact absurd rfl (noText _ _)
    · exact ih read behind

end Schema

/-! ### Walks -/

theorem Resource.walkAll_eq (resources : List Resource) :
    walkAll resources = resources.flatMap walk := by
  induction resources with
  | nil => rfl
  | cons resource rest ih => rw [walkAll, ih, List.flatMap_cons]

namespace Schema

/-- A method of a resource is read as a method that the walk over the resource finds. -/
theorem HasMethod.exists_read {entries body : Entries} (inside : HasMethod entries body)
    {uri : String} {resource : Resource} (read : readResource uri (.map entries) = .ok resource) :
    ∃ found ∈ resource.walk, ∃ method ∈ found.methods, ∃ path key,
      readMethod path key (.map body) = .ok method := by
  induction inside generalizing uri resource with
  | @here _ _ key listed verb =>
    rw [readResource] at read
    simp only [bind_ok_iff, Prod.exists] at read
    obtain ⟨methods, children, members, returned⟩ := read
    cases returned
    obtain ⟨method, member, made⟩ := (isReadInto_of_readMembers members listed).method verb
    rw [Resource.walk]
    exact ⟨_, List.mem_cons_self, method, member, [uri, key], key, made⟩
  | nested listed slashed _ ih =>
    rw [readResource] at read
    simp only [bind_ok_iff, Prod.exists] at read
    obtain ⟨methods, children, members, returned⟩ := read
    cases returned
    obtain ⟨child, member, read'⟩ := (isReadInto_of_readMembers members listed).child slashed
    obtain ⟨found, passed, made⟩ := ih read'
    -- What the walk over the child finds is found on the walk over the resource.
    rw [Resource.walk, Resource.walkAll_eq]
    exact ⟨found, List.mem_cons_of_mem _ (List.mem_flatMap.mpr ⟨child, member, passed⟩), made⟩

end Schema

namespace TypeGraph

variable {g : TypeGraph} {document : Entries}

theorem exists_mem_allMethods (read : (readGraph document).outcome = .ok g) {body : Entries}
    (declared : Schema.DeclaresMethod document body) :
    ∃ method ∈ g.allMethods, ∃ path key, Schema.readMethod path key (.map body) = .ok method := by
  obtain ⟨schema, ofDocument, built⟩ := schema_of_readGraph read
  obtain ⟨key, entries, listed, slashed, inside⟩ := declared
  simp only [Schema.ofDocument, bind_ok_iff] at ofDocument
  obtain ⟨_, _, _, _, _, _, resources, read', returned⟩ := ofDocument
  cases returned
  simp only [ofSchema, bind_ok_iff] at built
  obtain ⟨_, _, returned⟩ := built
  cases returned
  obtain ⟨resource, member, readResource⟩ := Schema.mem_of_readResources read' listed slashed
  obtain ⟨found, passed, method, method', made⟩ := inside.exists_read readResource
  refine ⟨method, ?_, made⟩
  rw [allMethods, Resource.walkAll_eq]
  exact List.mem_flatMap.mpr ⟨found, List.mem_flatMap.mpr ⟨resource, member, passed⟩, method'⟩

theorem mem_usedNames_of_payload {method : Method} (listed : method ∈ g.allMethods) {type : String}
    (payload : type ∈ method.payloadTypes) {name : String}
    (occurs : name ∈ (TypeExpr.parse type).referencedNames) : name ∈ g.usedNames :=
  List.mem_append_right _ (List.mem_flatMap.mpr
    ⟨type, List.mem_flatMap.mpr ⟨method, listed, payload⟩, occurs⟩)

/-- Every name in the type of a payload is used, so no type of that name is abstract. -/
theorem payload_used (read : (readGraph document).outcome = .ok g) {method : Entries} {body : Value}
    (declared : Schema.DeclaresMethod document method) (present : Schema.HasBody method body)
    {type name : String} (typed : Schema.DeclaresPayload body type)
    (occurs : name ∈ (TypeExpr.parse type).referencedNames) (annotations : String) :
    name ∈ g.usedNames ∧ (g.dispatch annotations).isUsed name = true ∧
      (g.dispatch annotations).isAbstract name = false := by
  obtain ⟨method', listed, path, key, made⟩ := exists_mem_allMethods read declared
  -- The empty text stands for no payload, but it has no names either.
  have nonempty : type ≠ "" := by
    rintro rfl
    have empty : (TypeExpr.parse "").referencedNames = [] := by cbv
    simp [empty] at occurs
  have used : name ∈ g.usedNames :=
    mem_usedNames_of_payload listed (Schema.mem_payloadTypes made present typed nonempty) occurs
  refine ⟨used, List.contains_iff_mem.mpr used, ?_⟩
  rw [Bool.eq_false_iff, Ne, isAbstract_dispatch_iff]
  exact fun isAbstract => isAbstract.unused used

/-- The response of a shelter: its pets, or in another media type a note. -/
def shelterBody : Entries :=
  [(.text "text/xml", .text "Note"),
  (.text "application/json", .map [(.text "type", .text "Pet[]")])]

def shelterMethod : Entries :=
  [(.text "responses", .map [(.int 200, .map [(.text "body", .map shelterBody)])])]

def shelterDocument : Entries :=
  [(.text "types", .map [
    (.text "Pet", .scalar .null),
    (.text "Cat", .map [(.text "type", .text "Pet")]),
    (.text "Note", .scalar .null),
    (.text "Memo", .map [(.text "type", .text "Note")])]),
  (.text "/shelters", .map [(.text "/{id}", .map [(.text "get", .map shelterMethod)])])]

theorem shelterMethod_hasBody : Schema.HasBody shelterMethod (.map shelterBody) :=
  .response rfl List.mem_cons_self rfl

theorem shelterDocument_declaresMethod :
    Schema.DeclaresMethod shelterDocument shelterMethod := by
  refine ⟨"/shelters", _, List.mem_cons_of_mem _ List.mem_cons_self, by decide, ?_⟩
  refine .nested List.mem_cons_self (by decide) ?_
  exact .here List.mem_cons_self (by decide)

theorem shelterDocument_graph :
    ∃ g, (readGraph shelterDocument).outcome = .ok g ∧ g.children "Pet" = ["Cat"] ∧
      g.names = ["Pet", "Cat", "Note", "Memo"] ∧ g.usedNames = ["Pet"] ∧
      (g.dispatch "gson").isAbstract "Note" = true := by
  have run : ((readGraph shelterDocument).outcome.map fun g =>
      (g.children "Pet", g.names, g.usedNames, (g.dispatch "gson").isAbstract "Note")).toOption =
      some (["Cat"], ["Pet", "Cat", "Note", "Memo"], ["Pet"], true) := by
    decide +kernel
  obtain ⟨g, read, facts⟩ := exists_of_toOption_map run
  simp only [Prod.mk.injEq] at facts
  exact ⟨g, read, facts⟩

/-- Pets are given as JSON, so they are used and not abstract, though there are cats. -/
theorem payload_used_shelters :
    ∃ g, (readGraph shelterDocument).outcome = .ok g ∧
      Schema.DeclaresMethod shelterDocument shelterMethod ∧
      Schema.HasBody shelterMethod (.map shelterBody) ∧
      Schema.DeclaresPayload (.map shelterBody) "Pet[]" ∧
      "Pet" ∈ (TypeExpr.parse "Pet[]").referencedNames ∧
      g.children "Pet" = ["Cat"] ∧ "Pet" ∈ g.usedNames ∧
      (g.dispatch "gson").isUsed "Pet" = true ∧ (g.dispatch "gson").isAbstract "Pet" = false := by
  obtain ⟨g, read, children, _⟩ := shelterDocument_graph
  have typed : Schema.DeclaresPayload (.map shelterBody) "Pet[]" :=
    .media rfl ⟨[_], [], rfl, by decide, by decide⟩ (.facet rfl .text)
  have names : (TypeExpr.parse "Pet[]").referencedNames = ["Pet"] := by cbv
  have occurs : "Pet" ∈ (TypeExpr.parse "Pet[]").referencedNames := by simp [names]
  exact ⟨g, read, shelterDocument_declaresMethod, shelterMethod_hasBody, typed, occurs, children,
    payload_used read shelterDocument_declaresMethod shelterMethod_hasBody typed occurs "gson"⟩

/-- Notes are given as XML where there is JSON, so they are not used and even abstract. -/
theorem payload_unused_notes :
    ∃ g, (readGraph shelterDocument).outcome = .ok g ∧
      Schema.DeclaresMethod shelterDocument shelterMethod ∧
      Schema.HasBody shelterMethod (.map shelterBody) ∧
      Schema.OffersPayload (.map shelterBody) "Note" ∧
      "Note" ∈ (TypeExpr.parse "Note").referencedNames ∧
      "Note" ∈ g.names ∧ "Note" ∉ g.usedNames ∧ (g.dispatch "gson").isAbstract "Note" = true := by
  obtain ⟨g, read, _, names, used, isAbstract⟩ := shelterDocument_graph
  have offered : Schema.OffersPayload (.map shelterBody) "Note" :=
    .media rfl List.mem_cons_self .text
  have single : (TypeExpr.parse "Note").referencedNames = ["Note"] := by cbv
  exact ⟨g, read, shelterDocument_declaresMethod, shelterMethod_hasBody, offered,
    by simp [single], by simp [names], by simp [used], isAbstract⟩

end TypeGraph

end RamlTypes
