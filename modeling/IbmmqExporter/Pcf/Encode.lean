/-
  Pcf/Encode.lean --- the PCF structures as trees, their bytes, and the parameters
  they stand for.

  `PcfTree` is the parameter grammar: numbers, texts, lists of both, and groups
  whose members lie inside the group's own `StrucLength`.  `encode` writes a tree
  in the layouts that the decoder reads, little-endian, each structure prefixed by
  its type and its `StrucLength`, texts padded to a multiple of four bytes.
  `param` is the `PCFParameter` the tree stands for.
-/
import IbmmqExporter.Pcf.Parser

set_option autoImplicit false

namespace IbmmqExporter.Pcf

open Foundation

/-! ## Trees -/

/-- A text in a field of `width` bytes, filled up with blanks or NULs. -/
structure Field (width : Nat) where
  text : Text
  pad : Bytes
  isPadding : IsPadding pad
  length_eq : text.bytes.length + pad.length = width

/-- The contents of the field. -/
def Field.bytes {width : Nat} (f : Field width) : Bytes := f.text.bytes ++ f.pad

@[simp] theorem Field.length_bytes {width : Nat} (f : Field width) :
    f.bytes.length = width := by
  simp [Field.bytes, f.length_eq]

/-- A structure that carries one number or one text. -/
inductive Scalar where
  /-- `MQCFIN` -/
  | integer (id v : Int32)
  /-- `MQCFIN64` whose value fits in 32 bits -/
  | integer64 (id v : Int32)
  /-- `MQCFST` -/
  | string (id ccsid : Int32) (s : Text)

/-- A PCF structure. -/
inductive PcfTree where
  | scalar (s : Scalar)
  /-- `MQCFIL` -/
  | integerList (id : Int32) (vs : List Int32)
  /-- `MQCFIL64` -/
  | integer64List (id : Int32) (vs : List Int64)
  /-- `MQCFSL` -/
  | stringList (id ccsid : Int32) (width : Nat) (width_pos : 0 < width)
      (ss : List (Field width))
  /-- `MQCFGR` with its members inside its `StrucLength`; `count` is the
  `ParameterCount` its header states -/
  | group (id count : Int32) (members : List PcfTree)

/-- Induction over trees: a group may be assumed to have good members. -/
@[elab_as_elim]
theorem PcfTree.induction {P : PcfTree → Prop} (scalar : ∀ s, P (.scalar s))
    (integerList : ∀ id vs, P (.integerList id vs))
    (integer64List : ∀ id vs, P (.integer64List id vs))
    (stringList : ∀ id ccsid width hw ss, P (.stringList id ccsid width hw ss))
    (group : ∀ id count members, (∀ t ∈ members, P t) → P (.group id count members))
    (t : PcfTree) : P t := by
  refine @PcfTree.rec P (fun members => ∀ t ∈ members, P t) scalar integerList
    integer64List stringList group ?_ ?_ t
  · intro t ht
    cases ht
  · intro t ts ht hts u hu
    rcases List.mem_cons.mp hu with rfl | hu
    · exact ht
    · exact hts u hu

/-! ## Bytes -/

/-- `Type`, `StrucLength` and `Parameter`: the start of every structure. -/
def encodeHeader (type : Int32) (strucLength : Nat) (id : Int32) : Bytes :=
  encodeInt32 type ++ (encodeInt32 (Int32.ofNat strucLength) ++ encodeInt32 id)

@[simp] theorem length_encodeHeader (type : Int32) (strucLength : Nat) (id : Int32) :
    (encodeHeader type strucLength id).length = 12 := by
  simp [encodeHeader]

/-- The NULs that fill `n` bytes up to a multiple of four. -/
def filling (n : Nat) : Bytes := List.replicate ((4 - n % 4) % 4) nul

/-- A structure of which everything after the first twelve bytes is given. -/
def encodeStructure (type id : Int32) (body : Bytes) : Bytes :=
  encodeHeader type (12 + body.length) id ++ body

@[simp] theorem length_encodeStructure (type id : Int32) (body : Bytes) :
    (encodeStructure type id body).length = 12 + body.length := by
  simp [encodeStructure]

/-- The bytes of a structure with one number or one text. -/
def Scalar.encode : Scalar → Bytes
  | .integer id v => encodeStructure mqcftInteger id (encodeInt32 v)
  | .integer64 id v =>
      encodeStructure mqcftInteger64 id (encodeInt32 0 ++ encodeInt64 v.toInt64)
  | .string id ccsid s =>
      encodeStructure mqcftString id
        (encodeInt32 ccsid ++ (encodeInt32 (Int32.ofNat s.bytes.length) ++
          (s.bytes ++ filling s.bytes.length)))

/- The bytes of a tree, and of the trees of a list one after the other. -/
mutual
/-- The bytes of a tree. -/
def PcfTree.encode : PcfTree → Bytes
  | .scalar s => s.encode
  | .integerList id vs =>
      encodeStructure mqcftIntegerList id
        (encodeInt32 (Int32.ofNat vs.length) ++ vs.flatMap encodeInt32)
  | .integer64List id vs =>
      encodeStructure mqcftInteger64List id
        (encodeInt32 (Int32.ofNat vs.length) ++ vs.flatMap encodeInt64)
  | .stringList id ccsid width _ ss =>
      encodeStructure mqcftStringList id
        (encodeInt32 ccsid ++ (encodeInt32 (Int32.ofNat ss.length) ++
          (encodeInt32 (Int32.ofNat width) ++
            (ss.flatMap Field.bytes ++ filling (ss.length * width)))))
  | .group id count members =>
      encodeStructure mqcftGroup id (encodeInt32 count ++ encodeAll members)
/-- The bytes of the trees of a list. -/
def encodeAll : List PcfTree → Bytes
  | [] => []
  | t :: ts => t.encode ++ encodeAll ts
end

theorem encodeAll_eq_flatMap (ts : List PcfTree) :
    encodeAll ts = ts.flatMap PcfTree.encode := by
  induction ts with
  | nil => rfl
  | cons t ts ih => simp [encodeAll, ih]

/-- The bytes of an `MQCFH`. -/
def PCFHeader.encode (hdr : PCFHeader) : Bytes :=
  encodeInt32 hdr.type ++ (encodeInt32 hdr.strucLength ++ (encodeInt32 hdr.version ++
    (encodeInt32 hdr.command ++ (encodeInt32 hdr.msgSeqNumber ++ (encodeInt32 hdr.control ++
      (encodeInt32 hdr.compCode ++ (encodeInt32 hdr.reason ++
        encodeInt32 hdr.parameterCount)))))))

@[simp] theorem PCFHeader.length_encode (hdr : PCFHeader) : hdr.encode.length = 36 := by
  simp [PCFHeader.encode]

/-! ## Parameters -/

/-- The parameter that a structure with one number or one text stands for.  The
empty text stands for a parameter without a value. -/
def Scalar.param : Scalar → PCFParameter
  | .integer id v => { parameter := id, type := mqcftInteger, value := .int32 v }
  | .integer64 id v => { parameter := id, type := mqcftInteger64, value := .int32 v }
  | .string id _ s =>
      { parameter := id, type := mqcftString,
        value := if s.bytes = [] then .monostate else .string s.bytes }

/- The parameter that a tree stands for, and those of a list of trees. -/
mutual
/-- The parameter that a tree stands for. -/
def PcfTree.param : PcfTree → PCFParameter
  | .scalar s => s.param
  | .integerList id vs =>
      { parameter := id, type := mqcftIntegerList,
        value := .intList (vs.map Int32.toInt64) }
  | .integer64List id vs =>
      { parameter := id, type := mqcftInteger64List, value := .intList vs }
  | .stringList id _ _ _ ss =>
      { parameter := id, type := mqcftStringList,
        value := .stringList (ss.map fun f => f.text.bytes) }
  | .group id _ members =>
      { parameter := id, type := mqcftGroup, value := .group (paramAll members) }
/-- The parameters of a list of trees. -/
def paramAll : List PcfTree → List PCFParameter
  | [] => []
  | t :: ts => t.param :: paramAll ts
end

theorem paramAll_eq_map (ts : List PcfTree) : paramAll ts = ts.map PcfTree.param := by
  induction ts with
  | nil => rfl
  | cons t ts ih => simp [paramAll, ih]

end IbmmqExporter.Pcf
