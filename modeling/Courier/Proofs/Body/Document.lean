import Courier.Body.Document
import Courier.Proofs.Body.Key
/-!
Bodies made from JSON documents.

`Json.parts` lists all parts of a document, each with the path that leads to it, and `Json.texts` those
that have no parts themselves, with the text they are written as. A body value made from a document has
just these as its leaves, so nothing is lost or added on the way to a form or a multipart body, and
neither of them refuses it. `documents_encode_leaf_for_leaf` is the main result.
-/

namespace Courier

namespace Json

/-- Induction over documents: an array and an object are as their members are. -/
theorem induction {P : Json → Prop} (null : P .null) (bool : ∀ b, P (.bool b))
    (number : ∀ n, P (.number n)) (string : ∀ text, P (.string text))
    (array : ∀ items, (∀ j ∈ items, P j) → P (.array items))
    (object : ∀ members, (∀ m ∈ members, P m.2) → P (.object members)) (j : Json) : P j := by
  refine @Json.rec P (fun items => ∀ j ∈ items, P j) (fun members => ∀ m ∈ members, P m.2)
    (fun m => P m.2) null bool number string array object ?_ ?_ ?_ ?_ ?_ j
  · intro j mem
    cases mem
  · intro j items first rest k mem
    cases mem with
    | head => exact first
    | tail _ later => exact rest k later
  · intro m mem
    cases mem
  · intro m members first rest k mem
    cases mem with
    | head => exact first
    | tail _ later => exact rest k later
  · intro _ j holds
    exact holds

mutual
/-- A document and all its parts, each before its own parts and after those that stand before it. -/
def parts : Json → List (KeyPath × Json)
  | .array items => ([], .array items) :: partsOfItems 0 items
  | .object members => ([], .object members) :: partsOfMembers members
  | .null => [([], .null)]
  | .bool b => [([], .bool b)]
  | .number n => [([], .number n)]
  | .string text => [([], .string text)]
  termination_by structural j => j

def partsOfItems (position : Nat) : List Json → List (KeyPath × Json)
  | [] => []
  | j :: rest =>
    (parts j).map (fun p => (.index position :: p.1, p.2)) ++ partsOfItems (position + 1) rest
  termination_by structural js => js

def partsOfMembers : List (String × Json) → List (KeyPath × Json)
  | [] => []
  | (name, j) :: rest =>
    (parts j).map (fun p => (.field name :: p.1, p.2)) ++ partsOfMembers rest
  termination_by structural ms => ms
end

/-- The path leads from a document to a part of it, by positions in arrays and names in objects. -/
inductive Leads : Json → KeyPath → Json → Prop where
  | here (j : Json) : Leads j [] j
  | item {items : List Json} {i : Nat} {j part : Json} {path : KeyPath} :
      items[i]? = some j → Leads j path part → Leads (.array items) (.index i :: path) part
  | member {members : List (String × Json)} {name : String} {j part : Json} {path : KeyPath} :
      (name, j) ∈ members → Leads j path part → Leads (.object members) (.field name :: path) part

/-- The text of a document that has no parts. An array or object has none, not even an empty one. -/
def text? : Json → Option String
  | .null => some ""
  | .bool true => some "true"
  | .bool false => some "false"
  | .number n => some (Json.number n).render
  | .string text => some text
  | .array _ => none
  | .object _ => none

/-- The texts of a document in its order, with the paths that lead to them. -/
def texts (j : Json) : List (KeyPath × String) :=
  j.parts.filterMap fun p => p.2.text?.map fun text => (p.1, text)

theorem parts_array (items : List Json) : (Json.array items).parts =
    ([], .array items) ::
      items.zipIdx.flatMap fun e => e.1.parts.map fun p => (.index e.2 :: p.1, p.2) := by
  have from_ (position : Nat) : partsOfItems position items =
      (items.zipIdx position).flatMap fun e =>
        e.1.parts.map fun p => (.index e.2 :: p.1, p.2) := by
    induction items generalizing position with
    | nil => rfl
    | cons j items ih => simp [partsOfItems, ih]
  rw [parts, from_]

theorem parts_object (members : List (String × Json)) : (Json.object members).parts =
    ([], .object members) ::
      members.flatMap fun m => m.2.parts.map fun p => (.field m.1 :: p.1, p.2) := by
  have all : partsOfMembers members =
      members.flatMap fun m => m.2.parts.map fun p => (.field m.1 :: p.1, p.2) := by
    induction members with
    | nil => rfl
    | cons m members ih => simp [partsOfMembers, ih]
  rw [parts, all]

/-- The parts that are listed are those that a path leads to. -/
theorem mem_parts_iff (j : Json) : ∀ path part, (path, part) ∈ j.parts ↔ j.Leads path part := by
  induction j using Json.induction with
  | null | bool | number | string =>
    intro path part
    constructor
    · intro mem
      cases List.mem_singleton.mp mem
      exact .here _
    · intro leads
      cases leads
      exact List.mem_singleton_self _
  | array items ih =>
    intro path part
    rw [parts_array, List.mem_cons, List.mem_flatMap]
    constructor
    · rintro (here | ⟨⟨j, i⟩, found, inside⟩)
      · cases here
        exact .here _
      · obtain ⟨⟨rest, part⟩, mem, same⟩ := List.mem_map.mp inside
        cases same
        have item := List.fst_mem_of_mem_zipIdx found
        exact .item (List.mk_mem_zipIdx_iff_getElem?.mp found) ((ih j item rest part).mp mem)
    · intro leads
      cases leads with
      | here => exact .inl rfl
      | @item _ i j _ rest found inner =>
        have mem := (ih j (List.mem_of_getElem? found) rest part).mpr inner
        exact .inr ⟨(j, i), List.mk_mem_zipIdx_iff_getElem?.mpr found, List.mem_map_of_mem mem⟩
  | object members ih =>
    intro path part
    rw [parts_object, List.mem_cons, List.mem_flatMap]
    constructor
    · rintro (here | ⟨⟨name, j⟩, found, inside⟩)
      · cases here
        exact .here _
      · obtain ⟨⟨rest, part⟩, mem, same⟩ := List.mem_map.mp inside
        cases same
        exact .member found ((ih _ found rest part).mp mem)
    · intro leads
      cases leads with
      | here => exact .inl rfl
      | @member _ name j _ rest found inner =>
        have mem := (ih _ found rest part).mpr inner
        exact .inr ⟨(name, j), found, List.mem_map_of_mem mem⟩

theorem mem_texts_iff (j : Json) (path : KeyPath) (text : String) :
    (path, text) ∈ j.texts ↔ ∃ part, j.Leads path part ∧ part.text? = some text := by
  simp only [texts, List.mem_filterMap, Option.map_eq_some_iff, Prod.mk.injEq]
  constructor
  · rintro ⟨⟨_, part⟩, mem, _, found, rfl, rfl⟩
    exact ⟨part, (j.mem_parts_iff _ _).mp mem, found⟩
  · rintro ⟨part, leads, found⟩
    exact ⟨(path, part), (j.mem_parts_iff _ _).mpr leads, text, found, rfl, rfl⟩

/-- The texts of parts, below the segment that leads to them. -/
theorem texts_under (s : Segment) (j : Json) :
    ((j.parts.map fun p => (s :: p.1, p.2)).filterMap fun p => p.2.text?.map fun text => (p.1, text)) =
      j.texts.map fun t => (s :: t.1, t.2) := by
  rw [List.filterMap_map, texts, List.map_filterMap]
  apply List.filterMap_congr
  intro p _
  simp [Function.comp_def]

theorem texts_array (items : List Json) : (Json.array items).texts =
    items.zipIdx.flatMap fun e => e.1.texts.map fun t => (.index e.2 :: t.1, t.2) := by
  rw [texts, parts_array, List.filterMap_cons_none rfl, List.filterMap_flatMap]
  simp only [texts_under]

theorem texts_object (members : List (String × Json)) : (Json.object members).texts =
    members.flatMap fun m => m.2.texts.map fun t => (.field m.1 :: t.1, t.2) := by
  rw [texts, parts_object, List.filterMap_cons_none rfl, List.filterMap_flatMap]
  simp only [texts_under]

/-- The names of the members of an object. -/
def names : Json → List String
  | .object members => members.map Prod.fst
  | _ => []

/-- No object in the document has two members of one name. -/
def Distinct (j : Json) : Prop := ∀ path part, j.Leads path part → part.names.Nodup

theorem distinct_iff (j : Json) : j.Distinct ↔ ∀ p ∈ j.parts, p.2.names.Nodup := by
  constructor
  · rintro distinct ⟨path, part⟩ mem
    exact distinct path part ((j.mem_parts_iff path part).mp mem)
  · intro each path part leads
    exact each _ ((j.mem_parts_iff path part).mpr leads)

instance (j : Json) : Decidable j.Distinct := decidable_of_iff _ j.distinct_iff.symm

theorem Distinct.nodup_texts {j : Json} (distinct : j.Distinct) :
    (j.texts.map Prod.fst).Nodup := by
  induction j using Json.induction with
  | null | number | string => exact List.nodup_singleton _
  | bool b => cases b <;> exact List.nodup_singleton _
  | array items ih =>
    have branches : (Json.array items).texts =
        (items.zipIdx.map fun e => (Segment.index e.2, e.1)).flatMap fun b =>
          b.2.texts.map fun t => (b.1 :: t.1, t.2) := by
      rw [texts_array, List.flatMap_map]
    rw [branches]
    apply KeyPath.nodup_branches (KeyPath.nodup_indices items)
    rintro _ mem
    obtain ⟨⟨j, i⟩, found, rfl⟩ := List.mem_map.mp mem
    apply ih j (List.fst_mem_of_mem_zipIdx found)
    intro path part leads
    exact distinct _ part (.item (List.mk_mem_zipIdx_iff_getElem?.mp found) leads)
  | object members ih =>
    have branches : (Json.object members).texts =
        (members.map fun m => (Segment.field m.1, m.2)).flatMap fun b =>
          b.2.texts.map fun t => (b.1 :: t.1, t.2) := by
      rw [texts_object, List.flatMap_map]
    rw [branches]
    apply KeyPath.nodup_branches (KeyPath.nodup_fields (distinct [] _ (.here _)))
    rintro _ mem
    obtain ⟨⟨name, j⟩, found, rfl⟩ := List.mem_map.mp mem
    apply ih _ found
    intro path part leads
    exact distinct _ part (.member found leads)

end Json

namespace Value

theorem ofJsonItems_eq_map (items : List Json) : ofJsonItems items = items.map ofJson := by
  induction items with
  | nil => rfl
  | cons j items ih => rw [ofJsonItems, ih, List.map_cons]

theorem ofJsonMembers_eq_map (members : List (String × Json)) :
    ofJsonMembers members = members.map fun m => (m.1, ofJson m.2) := by
  induction members with
  | nil => rfl
  | cons m members ih => rw [ofJsonMembers, ih, List.map_cons]

/-- The leaves of a body value made from a document are the texts of the document. -/
theorem leaves_ofJson (j : Json) :
    (ofJson j).leaves = j.texts.map fun t => (t.1, .scalar t.2) := by
  induction j using Json.induction with
  | null => rfl
  | bool b => cases b <;> rfl
  | number n => rfl
  | string text => rfl
  | array items ih =>
    rw [ofJson, ofJsonItems_eq_map, leaves_sequence, Json.texts_array, List.zipIdx_map,
      List.flatMap_map, List.map_flatMap]
    apply List.flatMap_congr
    rintro ⟨j, i⟩ found
    have item := ih j (List.fst_mem_of_mem_zipIdx found)
    simp [item]
  | object members ih =>
    rw [ofJson, ofJsonMembers_eq_map, leaves_record, Json.texts_object, List.flatMap_map,
      List.map_flatMap]
    apply List.flatMap_congr
    rintro ⟨name, j⟩ found
    simp [ih _ found]

end Value

namespace Sink

/-- A sink without a limit keeps all that it is given. -/
theorem feed_recorder {leaves : List (KeyPath × Leaf)}
    (supported : ∀ l ∈ leaves, l.2.isUnsupported = false) (held : Array (KeyPath × Leaf)) :
    (recorder none).feed leaves held = ⟨leaves, .ok (), held ++ leaves.toArray⟩ := by
  induction leaves generalizing held with
  | nil => simp [feed]
  | cons l leaves ih =>
    have later := ih (fun k mem => supported k (List.mem_cons_of_mem _ mem)) (held.push l)
    have kept : (recorder none).hand l held = ⟨[l], .ok (), held.push l⟩ := by
      obtain ⟨path, leaf⟩ := l
      cases leaf with
      | scalar | file => rfl
      | unsupported typeName => cases supported _ List.mem_cons_self
    simp [feed, kept, Fed.followed, later]

end Sink

theorem Form.pairs_ofJson (j : Json) :
    pairs (.ofJson j) = j.texts.map fun t => (t.1.render, t.2) := by
  rw [pairs, Value.leaves_ofJson, List.filterMap_map]
  exact congrFun List.filterMap_eq_map j.texts

/-- A body value made from a document has only scalar leaves, one for each text of the document. -/
theorem Value.pairOf_ofJson {j : Json} {l : KeyPath × Leaf} (mem : l ∈ (Value.ofJson j).leaves) :
    l.2.isFile = false ∧ l.2.isUnsupported = false ∧ (Form.pairOf l).isSome := by
  rw [leaves_ofJson] at mem
  obtain ⟨t, -, rfl⟩ := List.mem_map.mp mem
  exact ⟨rfl, rfl, rfl⟩

theorem Form.encode_ofJson (j : Json) :
    encode (.ofJson j) =
      .ok (String.ofList (joined (j.texts.map fun t => (t.1.render, t.2)))) := by
  rw [encode_joined fun l mem => (Value.pairOf_ofJson mem).2.2, pairs_ofJson]

theorem Multipart.encode_ofJson (b : Boundary) (j : Json) :
    encode b (.ofJson j) =
      .ok ((j.texts.map fun t => scalarPart b t.1.render t.2).flatten ++ closing b) := by
  rw [(encode_of_form (Form.encode_ofJson j) b).2, Form.pairs_ofJson, List.map_map]
  rfl

theorem Value.ofDatum_ok {typeName : String} {d : Json.Datum} {v : Value}
    (made : ofDatum typeName d = .ok v) : ∃ j, d.toJson = .ok j ∧ v = ofJson j := by
  unfold ofDatum at made
  split at made
  next j read =>
    cases made
    exact ⟨j, read, rfl⟩
  next => cases made

/-- A document becomes a body value whose leaves are the texts of the document, in its order and each
with the path that leads to it; a walk hands out these and nothing else. They are all that a path
leads to, and if no object names two members alike, no two of them have the same path. So a form and
a multipart body hold them one by one, and neither refuses a document, nor what typed data becomes. -/
theorem documents_encode_leaf_for_leaf (j : Json) :
    (Value.ofJson j).leaves = j.texts.map (fun t => (t.1, .scalar t.2)) ∧
    (∀ l ∈ (Value.ofJson j).leaves, l.2.isFile = false ∧ l.2.isUnsupported = false) ∧
    (Sink.recorder none).walk (Value.ofJson j) #[] =
      (.ok (), (j.texts.map fun t => (t.1, Leaf.scalar t.2)).toArray) ∧
    (∀ path text, (path, text) ∈ j.texts ↔ ∃ part, j.Leads path part ∧ part.text? = some text) ∧
    (j.Distinct → (j.texts.map Prod.fst).Nodup) ∧
    Form.encode (Value.ofJson j) =
      .ok (String.ofList (Form.joined (j.texts.map fun t => (t.1.render, t.2)))) ∧
    (∀ b, Multipart.encode b (Value.ofJson j) =
      .ok ((j.texts.map fun t => Multipart.scalarPart b t.1.render t.2).flatten ++
        Multipart.closing b)) ∧
    ∀ typeName d v, Value.ofDatum typeName d = .ok v →
      (∃ j', d.toJson = .ok j' ∧ v = Value.ofJson j') ∧
      (∃ body, Form.encode v = .ok body) ∧ ∀ b, ∃ body, Multipart.encode b v = .ok body := by
  have kinds : ∀ l ∈ (Value.ofJson j).leaves, l.2.isFile = false ∧ l.2.isUnsupported = false :=
    fun l mem => ⟨(Value.pairOf_ofJson mem).1, (Value.pairOf_ofJson mem).2.1⟩
  refine ⟨Value.leaves_ofJson j, kinds, ?_, j.mem_texts_iff, Json.Distinct.nodup_texts,
    Form.encode_ofJson j, fun b => Multipart.encode_ofJson b j, ?_⟩
  · rw [Sink.walk_eq_feed, Sink.feed_recorder fun l mem => (kinds l mem).2, Value.leaves_ofJson]
    simp
  · intro typeName d v made
    obtain ⟨j', read, rfl⟩ := Value.ofDatum_ok made
    exact ⟨⟨j', read, rfl⟩, ⟨_, Form.encode_ofJson j'⟩, fun b => ⟨_, Multipart.encode_ofJson b j'⟩⟩

private def nested : Json :=
  .object [("a", .array [.null, .object [], .array [], .bool true]),
    ("b", .object [("", .string "x&y"), ("n", .number (.negative 5))])]

/-- A record of typed data that gives a name twice: the second value takes the place of the first. -/
private def twice : Json.Datum :=
  .record [("k", .int 5), ("m", .absent), ("k", .list [.present (.text "x")])]

/-- Empty containers between scalars, an empty name, and typed data with a repeated one. -/
theorem documents_encode_leaf_for_leaf_nested :
    nested.Distinct ∧ (nested.texts.map Prod.fst).Nodup ∧
      nested.texts = [([.field "a", .index 0], ""), ([.field "a", .index 3], "true"),
        ([.field "b", .field ""], "x&y"), ([.field "b", .field "n"], "-5")] ∧
      Form.encode (Value.ofJson nested) = .ok "a[0]=&a[3]=true&b=x%26y&bn=%2D5" ∧
      ∃ v, Value.ofDatum "T" twice = .ok v ∧
        v = .record [("k", .sequence [.scalar "x"]), ("m", .null)] ∧
        (∃ body, Form.encode v = .ok body) ∧ ∀ b, ∃ body, Multipart.encode b v = .ok body := by
  have distinct : nested.Distinct := by decide
  obtain ⟨-, -, -, -, apart, form, -, typed⟩ := documents_encode_leaf_for_leaf nested
  have made : Value.ofDatum "T" twice =
      .ok (.record [("k", .sequence [.scalar "x"]), ("m", .null)]) := by rfl
  refine ⟨distinct, apart distinct, by decide +kernel, ?_, _, made, rfl, (typed _ _ _ made).2⟩
  exact form.trans (congrArg Except.ok (by decide +kernel))

end Courier
