import BeamSocket.Lib.Numeral

/-!
# The headers object of an authorize request

Model of the loop that collects the headers of an authorize request
(`packages/beamsocket/src/events.ts`, lines 88–100), with as much of JavaScript's objects as
it touches. `headers[name]` looks for an own property first and then along the prototypes: of
the object literal that is `Object.prototype`, until `__proto__` is assigned an array. The
names of `Array.prototype` grow with the language, so they are a parameter.

An array that the loop builds is the value of one own property, or the prototype, and of
nothing else: a value is enough of a model of it.

* `grouped_iff`: the object has each name with its values, and nothing else, iff no name is a
  property of `Object.prototype`.
-/

namespace BeamSocket.Sdk

open BeamSocket.Lib

/-- A value that is not an array: a string, a number, or an object of the language under its
    name. -/
inductive JsScalar
  | str (s : String)
  | num (n : ℕ)
  | intrinsic (name : String)
  deriving DecidableEq, Repr

/-- A value of the headers object. -/
inductive JsValue
  | scalar (v : JsScalar)
  | array (elems : List JsScalar)
  deriving DecidableEq, Repr

/-- The prototype of the headers object. -/
inductive JsPrototype
  | objectPrototype
  | array (elems : List JsScalar)
  deriving DecidableEq, Repr

/-- An object with its own properties. -/
structure JsObject where
  own : List (String × JsValue)
  proto : JsPrototype
  deriving DecidableEq, Repr

/-- The names of the properties of `Object.prototype`. All but `__proto__`, which is an
    accessor, are methods. -/
def objectPrototype : List String :=
  ["constructor", "__defineGetter__", "__defineSetter__", "hasOwnProperty", "__lookupGetter__",
    "__lookupSetter__", "isPrototypeOf", "propertyIsEnumerable", "toString", "valueOf",
    "__proto__", "toLocaleString"]

/-! ## Properties -/

/-- The element of an array that a name is the index of. -/
def elementAt (elems : List JsScalar) (name : String) : Option JsScalar :=
  (elems.zipIdx.find? fun p => String.ofList (numeral 10 p.2) = name).map Prod.fst

namespace JsPrototype

/-- The prototype as a value. -/
def value : JsPrototype → JsValue
  | objectPrototype => .scalar (.intrinsic "Object.prototype")
  | array elems => .array elems

/-- What is inherited under a name other than `__proto__`. -/
def get (arrayPrototype : List String) (proto : JsPrototype) (name : String) : Option JsScalar :=
  match proto with
  | objectPrototype => if name ∈ Sdk.objectPrototype then some (.intrinsic name) else none
  | array elems =>
    if name = "length" then some (.num elems.length)
    else
      match elementAt elems name with
      | some v => some v
      | none =>
        if name ∈ arrayPrototype ∨ name ∈ Sdk.objectPrototype then some (.intrinsic name) else none

end JsPrototype

/-- The own properties after an assignment. -/
def setOwn : List (String × JsValue) → String → JsValue → List (String × JsValue)
  | [], name, v => [(name, v)]
  | (n, w) :: own, name, v => if n = name then (n, v) :: own else (n, w) :: setOwn own name v

theorem lookup_cons_ite (m n : String) (w : JsValue) (own : List (String × JsValue)) :
    ((m, w) :: own).lookup n = if n = m then some w else own.lookup n := by
  by_cases h : n = m
  · subst h
    simp
  · rw [if_neg h, List.lookup_cons, beq_false_of_ne h]

theorem lookup_setOwn (own : List (String × JsValue)) (name : String) (v : JsValue) (n : String) :
    (setOwn own name v).lookup n = if n = name then some v else own.lookup n := by
  induction own with
  | nil => exact lookup_cons_ite ..
  | cons p own ih =>
    obtain ⟨m, w⟩ := p
    by_cases hm : m = name
    · rw [setOwn, if_pos hm, lookup_cons_ite, lookup_cons_ite, hm]
      split_ifs <;> rfl
    · rw [setOwn, if_neg hm, lookup_cons_ite, lookup_cons_ite, ih]
      by_cases h : n = m
      · rw [if_pos h, if_neg (h ▸ hm), if_pos h]
      · rw [if_neg h, if_neg h]

namespace JsObject

/-- The object literal without properties. -/
def empty : JsObject := { own := [], proto := .objectPrototype }

variable (arrayPrototype : List String) (obj : JsObject)

/-- `obj[name]`; `none` is `undefined`. -/
def get (name : String) : Option JsValue :=
  match obj.own.lookup name with
  | some v => some v
  | none =>
    if name = "__proto__" then some obj.proto.value
    else (obj.proto.get arrayPrototype name).map .scalar

/-- An array as the value of a property. `__proto__` makes it the prototype. -/
def storeArray (name : String) (elems : List JsScalar) : JsObject :=
  if name = "__proto__" then { obj with proto := .array elems }
  else { obj with own := setOwn obj.own name (.array elems) }

/-- The body of the loop (lines 92–99). `__proto__` is never `undefined`. -/
def addHeader (name value : String) : JsObject :=
  match obj.get arrayPrototype name with
  | none => { obj with own := setOwn obj.own name (.scalar (.str value)) }
  | some (.array existing) => obj.storeArray name (existing ++ [.str value])
  | some (.scalar existing) => obj.storeArray name [existing, .str value]

end JsObject

/-- The loop (lines 88–100). -/
def groupHeaders (arrayPrototype : List String) (headers : List (String × String)) : JsObject :=
  headers.foldl (fun obj h => obj.addHeader arrayPrototype h.1 h.2) .empty

/-! ## Grouping -/

/-- The values of a name, in order. -/
def valuesOf (headers : List (String × String)) (name : String) : List String :=
  (headers.filter fun h => h.1 = name).map Prod.snd

/-- No property, a single value, or the array of all. -/
def ownValue : List String → Option JsValue
  | [] => none
  | [v] => some (.scalar (.str v))
  | vs => some (.array (vs.map .str))

/-- Each name has its values as own property, there is no other own property, and the
    prototype is that of an object literal. -/
structure Grouped (headers : List (String × String)) (obj : JsObject) : Prop where
  own : ∀ name, obj.own.lookup name = ownValue (valuesOf headers name)
  proto : obj.proto = .objectPrototype

/-- The prototype is an array, or an array with an object of the language stands among the own
    properties. -/
def Spoiled (obj : JsObject) : Prop :=
  (∃ elems, obj.proto = .array elems) ∨
    ∃ name elems intrinsic, obj.own.lookup name = some (.array elems) ∧
      .intrinsic intrinsic ∈ elems

variable {arrayPrototype : List String} {headers : List (String × String)} {obj : JsObject}

theorem Spoiled.not_grouped (h : Spoiled obj) : ¬Grouped headers obj := by
  intro hg
  obtain ⟨elems, hproto⟩ | ⟨name, elems, intrinsic, hown, hmem⟩ := h
  · rw [hg.proto] at hproto
    cases hproto
  · rw [hg.own] at hown
    match hvs : valuesOf headers name, hown with
    | v :: w :: vs, hown =>
      cases hown
      simp at hmem

/-- A header changes one own property, or makes an array the prototype. -/
theorem JsObject.addHeader_cases (arrayPrototype : List String) (obj : JsObject)
    (name value : String) :
    (∃ elems, obj.addHeader arrayPrototype name value = { obj with proto := .array elems }) ∨
      ∃ v, obj.addHeader arrayPrototype name value =
        { obj with own := setOwn obj.own name v } := by
  unfold JsObject.addHeader JsObject.storeArray
  split
  · exact .inr ⟨_, rfl⟩
  · split_ifs
    · exact .inl ⟨_, rfl⟩
    · exact .inr ⟨_, rfl⟩
  · split_ifs
    · exact .inl ⟨_, rfl⟩
    · exact .inr ⟨_, rfl⟩

theorem Spoiled.addHeader (h : Spoiled obj) (name value : String) :
    Spoiled (obj.addHeader arrayPrototype name value) := by
  obtain ⟨elems, heq⟩ | ⟨v, heq⟩ := obj.addHeader_cases arrayPrototype name value
  · rw [heq]
    exact .inl ⟨elems, rfl⟩
  obtain hproto | ⟨n, elems, intrinsic, hown, hmem⟩ := h
  · rw [heq]
    exact .inl hproto
  -- only a header of the same name touches the array, and it appends to it
  by_cases hn : n = name
  · subst hn
    rw [JsObject.addHeader, JsObject.get, hown]
    dsimp only
    rw [JsObject.storeArray]
    split_ifs
    · exact .inl ⟨_, rfl⟩
    · refine .inr ⟨n, elems ++ [.str value], intrinsic, ?_, List.mem_append_left _ hmem⟩
      rw [lookup_setOwn, if_pos rfl]
  · rw [heq]
    refine .inr ⟨n, elems, intrinsic, ?_, hmem⟩
    rw [lookup_setOwn, if_neg hn, hown]

theorem valuesOf_append (name value n : String) :
    valuesOf (headers ++ [(name, value)]) n =
      if n = name then valuesOf headers n ++ [value] else valuesOf headers n := by
  rw [valuesOf, List.filter_append, List.map_append]
  by_cases h : n = name
  · rw [if_pos h, h]
    simp [valuesOf]
  · rw [if_neg h]
    simp [valuesOf, Ne.symm h]

/-- The first header of an inherited name is put in an array with what is inherited. -/
theorem Grouped.addHeader_inherited (h : Grouped headers obj) {name : String}
    (hnew : valuesOf headers name = []) (hname : name ∈ objectPrototype) (value : String) :
    Spoiled (obj.addHeader arrayPrototype name value) := by
  have hown : obj.own.lookup name = none := by rw [h.own, hnew]; rfl
  by_cases hproto : name = "__proto__"
  · have hget : obj.get arrayPrototype name = some (.scalar (.intrinsic "Object.prototype")) := by
      rw [JsObject.get, hown]
      dsimp only
      rw [if_pos hproto, h.proto]
      rfl
    rw [JsObject.addHeader, hget]
    dsimp only
    rw [JsObject.storeArray, if_pos hproto]
    exact .inl ⟨_, rfl⟩
  · have hget : obj.get arrayPrototype name = some (.scalar (.intrinsic name)) := by
      rw [JsObject.get, hown]
      dsimp only
      rw [if_neg hproto, h.proto, JsPrototype.get, if_pos hname]
      rfl
    rw [JsObject.addHeader, hget]
    dsimp only
    rw [JsObject.storeArray, if_neg hproto]
    refine .inr ⟨name, [.intrinsic name, .str value], name, ?_, List.mem_cons_self ..⟩
    rw [lookup_setOwn, if_pos rfl]

/-- A header of another name goes to the values of that name. -/
theorem Grouped.addHeader (h : Grouped headers obj) {name : String}
    (hname : name ∉ objectPrototype) (value : String) :
    Grouped (headers ++ [(name, value)]) (obj.addHeader arrayPrototype name value) := by
  have hproto : name ≠ "__proto__" := by
    intro heq
    exact hname (heq ▸ by decide)
  have hget : obj.get arrayPrototype name = ownValue (valuesOf headers name) := by
    rw [JsObject.get, h.own]
    cases ownValue (valuesOf headers name) with
    | some v => rfl
    | none =>
      dsimp only
      rw [if_neg hproto, h.proto, JsPrototype.get, if_neg hname]
      rfl
  have hset : ∀ v, ownValue (valuesOf headers name ++ [value]) = some v →
      Grouped (headers ++ [(name, value)]) { obj with own := setOwn obj.own name v } := by
    intro v hv
    refine ⟨fun n => ?_, h.proto⟩
    rw [lookup_setOwn, valuesOf_append]
    split_ifs with hn
    · rw [hn, hv]
    · exact h.own n
  rw [JsObject.addHeader, hget]
  match hvs : valuesOf headers name with
  | [] => exact hset _ (by rw [hvs]; rfl)
  | [v] =>
    show Grouped _ (obj.storeArray name _)
    rw [JsObject.storeArray, if_neg hproto]
    exact hset _ (by rw [hvs]; rfl)
  | v :: w :: vs =>
    show Grouped _ (obj.storeArray name _)
    rw [JsObject.storeArray, if_neg hproto]
    exact hset _ (by rw [hvs]; simp [ownValue])

/-- While no name is inherited the headers are grouped; with the first that is, they no longer
    are. -/
theorem groupHeaders_cases (arrayPrototype : List String) (headers : List (String × String)) :
    ((∀ h ∈ headers, h.1 ∉ objectPrototype) ∧
        Grouped headers (groupHeaders arrayPrototype headers)) ∨
      ((∃ h ∈ headers, h.1 ∈ objectPrototype) ∧
        Spoiled (groupHeaders arrayPrototype headers)) := by
  induction headers using List.reverseRecOn with
  | nil => exact .inl ⟨by simp, fun name => rfl, rfl⟩
  | append_singleton headers h ih =>
    have hstep : groupHeaders arrayPrototype (headers ++ [h]) =
        (groupHeaders arrayPrototype headers).addHeader arrayPrototype h.1 h.2 := by
      rw [groupHeaders, List.foldl_append]
      rfl
    rw [hstep]
    obtain ⟨hclean, hg⟩ | ⟨⟨b, hb, hbad⟩, hspoiled⟩ := ih
    · by_cases hname : h.1 ∈ objectPrototype
      · refine .inr ⟨⟨h, by simp, hname⟩, hg.addHeader_inherited ?_ hname h.2⟩
        simp only [valuesOf, List.map_eq_nil_iff, List.filter_eq_nil_iff, decide_eq_true_eq]
        intro b hb heq
        exact hclean b hb (heq ▸ hname)
      · refine .inl ⟨?_, hg.addHeader hname h.2⟩
        intro b hb
        obtain hb | hb := List.mem_append.mp hb
        · exact hclean b hb
        · rw [List.mem_singleton.mp hb]
          exact hname
    · exact .inr ⟨⟨b, List.mem_append_left _ hb, hbad⟩, hspoiled.addHeader h.1 h.2⟩

theorem grouped_iff (arrayPrototype : List String) (headers : List (String × String)) :
    Grouped headers (groupHeaders arrayPrototype headers) ↔
      ∀ h ∈ headers, h.1 ∉ objectPrototype := by
  obtain ⟨hclean, hg⟩ | ⟨⟨b, hb, hbad⟩, hspoiled⟩ := groupHeaders_cases arrayPrototype headers
  · exact iff_of_true hg hclean
  · refine iff_of_false hspoiled.not_grouped ?_
    intro hclean
    exact hclean b hb hbad

end BeamSocket.Sdk
