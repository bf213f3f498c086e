/-
  Monitor/Agreement.lean --- the two PCF decoders on streams with groups.

  The streams are sequences of numbers, texts and groups in the layout in which
  the queue manager sends groups: a header of 16 bytes that counts the members, and
  the members behind it.

  WHAT THE FILE PROVES.  `ResourceMonitor::parse_pcf_params` decodes every such
  stream, members under their groups.  `PCFParser::parse_parameters` looks for the
  members inside the header, finds none, and lists them at the top level; the two
  agree exactly on the streams all of whose groups are empty.
-/
import IbmmqExporter.Monitor.Stream

set_option autoImplicit false

namespace IbmmqExporter.Monitor

open Foundation Pcf

/-! ## Streams -/

/-- A parameter of a stream: one structure, or a group header with the structures
that follow it. -/
inductive Item where
  | leaf (s : Scalar)
  | group (id : Int32) (members : List Scalar)

/-- The bytes of a parameter. -/
def Item.encode : Item → Bytes
  | .leaf s => s.encode
  | .group id members =>
      encodeGroupHeader id members.length ++ members.flatMap Scalar.encode

/-- Every `StrucLength` and every `ParameterCount` fits in its 32-bit field. -/
def Item.Fits : Item → Prop
  | .leaf s => s.encode.length < 2 ^ 31
  | .group _ members =>
      members.length < 2 ^ 31 ∧ ∀ s ∈ members, s.encode.length < 2 ^ 31

/-- The monitor's parameter for a structure. -/
def leafParam : Scalar → PCFParam
  | .integer id v =>
      { type := mqcftInteger, paramId := id, intValue := v, int64Value := v.toInt64 }
  | .integer64 id v =>
      { type := mqcftInteger64, paramId := id, intValue := v, int64Value := v.toInt64 }
  | .string id _ s => { type := mqcftString, paramId := id, strValue := s.bytes }

/-- The parameter that an item of the stream stands for: a group with exactly its
members, in order. -/
def Item.param : Item → PCFParam
  | .leaf s => leafParam s
  | .group id members =>
      { type := mqcftGroup, paramId := id, groupParams := members.map leafParam }

/-! ## The monitor's decoder -/

/-- A scalar is a cell. -/
theorem exists_cell (s : Scalar) (hlen : s.encode.length < 2 ^ 31) :
    ∃ c : Cell, c.encode = s.encode ∧ c.param = leafParam s := by
  cases s with
  | integer id v => exact ⟨.integer id v, rfl, rfl⟩
  | integer64 id v =>
      refine ⟨.integer64 id v.toInt64, rfl, ?_⟩
      simp [Cell.integer64, leafParam]
  | string id ccsid s =>
      rw [Scalar.encode, length_encodeStructure] at hlen
      exact ⟨.string id ccsid s hlen, rfl, rfl⟩

/-- Scalars are cells. -/
theorem exists_cells (ss : List Scalar) (hlen : ∀ s ∈ ss, s.encode.length < 2 ^ 31) :
    ∃ cs : List Cell, cs.length = ss.length ∧
      cs.flatMap Cell.encode = ss.flatMap Scalar.encode ∧
      cs.map Cell.param = ss.map leafParam := by
  induction ss with
  | nil => exact ⟨[], rfl, rfl, rfl⟩
  | cons s ss ih =>
      obtain ⟨c, hbytes, hparam⟩ := exists_cell s (hlen s List.mem_cons_self)
      obtain ⟨cs, hcount, hall, hparams⟩ := ih fun t ht => hlen t (List.mem_cons_of_mem s ht)
      refine ⟨c :: cs, congrArg (· + 1) hcount, ?_, ?_⟩
      · rw [List.flatMap_cons, List.flatMap_cons, hbytes, hall]
      · rw [List.map_cons, List.map_cons, hparam, hparams]

/-- Items are entries of a stream. -/
theorem exists_entries (items : List Item) (hfits : ∀ i ∈ items, i.Fits) :
    ∃ es : List Entry, es.flatMap Entry.encode = items.flatMap Item.encode ∧
      es.map Entry.param = items.map Item.param := by
  induction items with
  | nil => exact ⟨[], rfl, rfl⟩
  | cons i items ih =>
      have hi := hfits i List.mem_cons_self
      obtain ⟨es, hbytes, hparams⟩ := ih fun j hj => hfits j (List.mem_cons_of_mem i hj)
      have hentry : ∃ e : Entry, e.encode = i.encode ∧ e.param = i.param := by
        cases i with
        | leaf s =>
            obtain ⟨c, hbytes, hparam⟩ := exists_cell s hi
            exact ⟨.leaf c, hbytes, hparam⟩
        | group id members =>
            obtain ⟨cs, hcount, hbytes, hparams⟩ := exists_cells members hi.2
            refine ⟨.group id cs (hcount ▸ hi.1), ?_, ?_⟩
            · rw [Entry.encode, Item.encode, hcount, hbytes]
            · rw [Entry.param, Item.param, hparams]
      obtain ⟨e, hbytes', hparam⟩ := hentry
      refine ⟨e :: es, ?_, ?_⟩
      · rw [List.flatMap_cons, List.flatMap_cons, hbytes', hbytes]
      · rw [List.map_cons, List.map_cons, hparam, hparams]

/-- The monitor decodes every stream: the parameters in order, each group with
exactly its members. -/
theorem parsePcfParams_encode {items : List Item} (hfits : ∀ i ∈ items, i.Fits) :
    parsePcfParams (items.flatMap Item.encode) = .ok (items.map Item.param) := by
  obtain ⟨es, hbytes, hparams⟩ := exists_entries items hfits
  rw [← hbytes, ← hparams]
  exact parsePcfParams_entries es

/-! ## The parser's decoder -/

/- `PCFParser`'s parameters in the monitor's terms. -/
mutual
/-- A parameter of `PCFParser` in the monitor's terms.  The monitor keeps nothing of
a list. -/
def view : PCFParameter → PCFParam
  | ⟨id, type, .int32 v⟩ =>
      { type, paramId := id, intValue := v, int64Value := v.toInt64 }
  | ⟨id, type, .int64 v⟩ =>
      { type, paramId := id, intValue := v.toInt32, int64Value := v }
  | ⟨id, type, .string s⟩ => { type, paramId := id, strValue := s }
  | ⟨id, type, .group ps⟩ => { type, paramId := id, groupParams := viewAll ps }
  | ⟨id, type, .monostate⟩ => { type, paramId := id }
  | ⟨id, type, .intList _⟩ => { type, paramId := id }
  | ⟨id, type, .stringList _⟩ => { type, paramId := id }
/-- The parameters of a list in the monitor's terms. -/
def viewAll : List PCFParameter → List PCFParam
  | [] => []
  | p :: ps => view p :: viewAll ps
end

theorem viewAll_eq_map (ps : List PCFParameter) : viewAll ps = ps.map view := by
  induction ps with
  | nil => rfl
  | cons p ps ih => simp [viewAll, ih]

/-- The structures of an item as `PCFParser` frames them: the header of a group is a
group without a member, and its members are structures of their own. -/
def Item.trees : Item → List PcfTree
  | .leaf s => [.scalar s]
  | .group id members =>
      .group id (Int32.ofNat members.length) [] :: members.map .scalar

theorem encode_trees (i : Item) : i.trees.flatMap PcfTree.encode = i.encode := by
  cases i with
  | leaf s => simp [Item.trees, Item.encode, PcfTree.encode]
  | group id members =>
      simp [Item.trees, Item.encode, PcfTree.encode, encodeAll, encodeGroupHeader,
        List.flatMap_map]

theorem view_param_scalar (s : Scalar) : view s.param = leafParam s := by
  cases s with
  | integer id v => rfl
  | integer64 id v => rfl
  | string id ccsid s =>
      by_cases hnil : s.bytes = []
      · simp [Scalar.param, hnil, view, leafParam]
      · simp [Scalar.param, hnil, view, leafParam]

theorem fits_trees {i : Item} (hi : i.Fits) : ∀ t ∈ i.trees, t.encode.length < 2 ^ 31 := by
  intro t ht
  cases i with
  | leaf s =>
      rcases List.mem_singleton.mp ht with rfl
      exact hi
  | group id members =>
      rcases List.mem_cons.mp ht with rfl | ht
      · simp [PcfTree.encode, encodeAll]
      · obtain ⟨s, hs, rfl⟩ := List.mem_map.mp ht
        exact hi.2 s hs

/-- `PCFParser` lists the members of every group at the top level. -/
theorem parseParameters_items {items : List Item} (hfits : ∀ i ∈ items, i.Fits) :
    parseParameters (items.flatMap Item.encode) =
      .ok ((items.flatMap Item.trees).map PcfTree.param) := by
  have hbytes : items.flatMap Item.encode =
      (items.flatMap Item.trees).flatMap PcfTree.encode := by
    rw [List.flatMap_assoc]
    exact List.flatMap_congr fun i _ => (encode_trees i).symm
  rw [hbytes]
  apply parseParameters_trees
  intro t ht
  obtain ⟨i, hi, hti⟩ := List.mem_flatMap.mp ht
  exact fits_trees (hfits i hi) t hti

/-! ## Agreement -/

/-- Both decoders return, and what they return is the same tree: the parameters of
the stream in order, each group with exactly its members. -/
def SameTree (items : List Item) : Prop :=
  ∃ ps qs, parseParameters (items.flatMap Item.encode) = .ok ps ∧
    parsePcfParams (items.flatMap Item.encode) = .ok qs ∧
    viewAll ps = qs ∧ qs = items.map Item.param

theorem length_trees_ge (items : List Item) :
    items.length ≤ (items.flatMap Item.trees).length := by
  induction items with
  | nil => simp
  | cons i items ih =>
      have hpos : 1 ≤ i.trees.length := by
        cases i with
        | leaf s => simp [Item.trees]
        | group id members => simp [Item.trees]
      simp only [List.flatMap_cons, List.length_append, List.length_cons]
      omega

/-- As many structures as items: no group has a member. -/
theorem members_nil_of_length {items : List Item}
    (h : (items.flatMap Item.trees).length = items.length) :
    ∀ id members, Item.group id members ∈ items → members = [] := by
  induction items with
  | nil =>
      intro id members hm
      cases hm
  | cons i items ih =>
      have hge := length_trees_ge items
      simp only [List.flatMap_cons, List.length_append, List.length_cons] at h
      intro id members hm
      rcases List.mem_cons.mp hm with rfl | hm
      · simp only [Item.trees, List.length_cons, List.length_map] at h
        exact List.eq_nil_of_length_eq_zero (by omega)
      · refine ih ?_ id members hm
        have hpos : 1 ≤ i.trees.length := by
          cases i with
          | leaf s => simp [Item.trees]
          | group id members => simp [Item.trees]
        omega

theorem viewAll_trees {items : List Item}
    (h : ∀ id members, Item.group id members ∈ items → members = []) :
    viewAll ((items.flatMap Item.trees).map PcfTree.param) = items.map Item.param := by
  rw [viewAll_eq_map]
  induction items with
  | nil => rfl
  | cons i items ih =>
      have hrest := ih fun id members hm => h id members (List.mem_cons_of_mem i hm)
      cases i with
      | leaf s =>
          simp [Item.trees, PcfTree.param, view_param_scalar, Item.param] at hrest ⊢
          exact hrest
      | group id members =>
          have hnil := h id members List.mem_cons_self
          subst hnil
          simp [Item.trees, PcfTree.param, paramAll, view, viewAll, Item.param] at hrest ⊢
          exact hrest

/-- The two decoders build the same tree from a stream exactly when every group in
it is empty. -/
theorem sameTree_iff (items : List Item) (hfits : ∀ i ∈ items, i.Fits) :
    SameTree items ↔ ∀ id members, Item.group id members ∈ items → members = [] := by
  constructor
  · rintro ⟨ps, qs, hps, hqs, hview, hparam⟩
    rw [parseParameters_items hfits] at hps
    cases hps
    apply members_nil_of_length
    have hlen := congrArg List.length (hview.trans hparam)
    simpa [viewAll_eq_map] using hlen
  · intro hnil
    exact ⟨_, _, parseParameters_items hfits, parsePcfParams_encode hfits,
      viewAll_trees hnil, rfl⟩

/-- A queue depth on its own, then a group of which a queue depth is the one member. -/
def groupedDepth : List Item := [.leaf (.integer 3 7), .group 8010 [.integer 3 5]]

theorem groupedDepth_fits : ∀ i ∈ groupedDepth, i.Fits := by
  intro i hi
  simp only [groupedDepth, List.mem_cons, List.not_mem_nil, or_false] at hi
  rcases hi with rfl | rfl
  · simp [Item.Fits, Scalar.encode]
  · simp [Item.Fits, Scalar.encode]

theorem sameTree_iff_groupedDepth :
    SameTree groupedDepth ↔
      ∀ id members, Item.group id members ∈ groupedDepth → members = [] :=
  sameTree_iff groupedDepth groupedDepth_fits

/-- `PCFParser` finds three parameters in the stream, the monitor two. -/
theorem not_sameTree_groupedDepth : ¬ SameTree groupedDepth := by
  rintro ⟨ps, qs, hps, hqs, hview, hparam⟩
  rw [parseParameters_items groupedDepth_fits] at hps
  cases hps
  have hlen := congrArg List.length (hview.trans hparam)
  simp [viewAll_eq_map, groupedDepth, Item.trees] at hlen

end IbmmqExporter.Monitor
