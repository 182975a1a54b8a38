import Mathlib
import QueryChain.Codec.Expr
import QueryChain.Proofs.Expr.Nodes

/-!
# Trees that are written and read again

What is written of a tree is read as the same tree, as long as all its numbers are finite and the form
of numbers keeps finite numbers. So no two such trees are written alike. If moreover nothing is read of
what the form writes of any other number, then a tree with such a number is not read at all.

## Main definitions

* `Value.isFinite`, `Expr.isFinite`: all numbers are finite, at any depth

## Main results

* `Value.decode_encode`, `Expr.decode_encode`: what is read of finite numbers
* `Value.decode_encode_eq_none`, `Expr.decode_encode_eq_none`: what is read of others
* `Expr.decode_encode_eq`: a node is read from its children
* `Expr.decode_encode_of_isFinite`: trees of finite numbers are written without loss
-/

namespace QueryChain

variable {form : NumberForm}

/-! ## Values -/

namespace Value

mutual

/-- Whether all numbers of the value are finite, at any depth. -/
def isFinite : Value → Bool
  | float x => x.isFinite
  | list items => itemsFinite items
  | record fields => fieldsFinite fields
  | _ => true

/-- Whether all numbers of the items of a list are finite. -/
def itemsFinite : List Value → Bool
  | [] => true
  | v :: vs => isFinite v && itemsFinite vs

/-- Whether all numbers of the fields of a record are finite. -/
def fieldsFinite : List (String × Value) → Bool
  | [] => true
  | (_, v) :: fs => isFinite v && fieldsFinite fs

end

theorem decode_encode_float (form : NumberForm) (x : Float) :
    decode form ((float x).encode form) = (form.read? (form.write x)).map float :=
  rfl

theorem decode_encode_list (form : NumberForm) (items : List Value) :
    decode form ((list items).encode form) =
      (decodeItems form (encodeItems form items)).map list :=
  rfl

theorem decode_encode_record (form : NumberForm) (fields : List (String × Value)) :
    decode form ((record fields).encode form) =
      (decodeFields form (encodeFields form fields)).map record :=
  rfl

mutual

/-- **A value of finite numbers is read as it was written.** -/
theorem decode_encode (hform : form.KeepsFinite) :
    ∀ {v : Value}, v.isFinite → decode form (v.encode form) = some v
  | null, _ | bool _, _ | text _, _ => by simp [encode, decode, Data.variant]
  | int n, _ => by
    have hfit : fit? n.toInt = some n := fit?_eq_some_iff.mpr rfl
    simp [encode, decode, Data.variant, hfit]
  | float x, h => by rw [decode_encode_float, hform x h, Option.map_some]
  | list items, h => by rw [decode_encode_list, decodeItems_encodeItems hform h, Option.map_some]
  | record fields, h => by
    rw [decode_encode_record, decodeFields_encodeFields hform h, Option.map_some]

theorem decodeItems_encodeItems (hform : form.KeepsFinite) :
    ∀ {items : List Value}, itemsFinite items →
      decodeItems form (encodeItems form items) = some items
  | [], _ => rfl
  | v :: vs, h => by
    obtain ⟨hv, hvs⟩ := Bool.and_eq_true_iff.mp h
    rw [encodeItems, decodeItems, decode_encode hform hv, decodeItems_encodeItems hform hvs]

theorem decodeFields_encodeFields (hform : form.KeepsFinite) :
    ∀ {fields : List (String × Value)}, fieldsFinite fields →
      decodeFields form (encodeFields form fields) = some fields
  | [], _ => rfl
  | (n, v) :: fs, h => by
    obtain ⟨hv, hfs⟩ := Bool.and_eq_true_iff.mp h
    rw [encodeFields, decodeFields, decode_encode hform hv, decodeFields_encodeFields hform hfs]

end

mutual

/-- A value with another number is not read, if nothing is read of what is written of the number. -/
theorem decode_encode_eq_none (hform : form.DropsOthers) :
    ∀ {v : Value}, v.isFinite = false → decode form (v.encode form) = none
  | float x, h => by rw [decode_encode_float, hform x (Bool.eq_false_iff.mp h), Option.map_none]
  | list items, h => by rw [decode_encode_list, decodeItems_eq_none hform h, Option.map_none]
  | record fields, h => by rw [decode_encode_record, decodeFields_eq_none hform h, Option.map_none]

theorem decodeItems_eq_none (hform : form.DropsOthers) :
    ∀ {items : List Value}, itemsFinite items = false →
      decodeItems form (encodeItems form items) = none
  | v :: vs, h => by
    rw [encodeItems, decodeItems]
    rcases Bool.and_eq_false_iff.mp h with hv | hvs
    · rw [decode_encode_eq_none hform hv]
    · rw [decodeItems_eq_none hform hvs]
      cases decode form (v.encode form) <;> rfl

theorem decodeFields_eq_none (hform : form.DropsOthers) :
    ∀ {fields : List (String × Value)}, fieldsFinite fields = false →
      decodeFields form (encodeFields form fields) = none
  | (n, v) :: fs, h => by
    rw [encodeFields, decodeFields]
    rcases Bool.and_eq_false_iff.mp h with hv | hfs
    · rw [decode_encode_eq_none hform hv]
    · rw [decodeFields_eq_none hform hfs]
      cases decode form (v.encode form) <;> rfl

end

end Value

/-! ## Names of alternatives -/

theorem Kind.decode_encode (k : Kind) : Kind.decode k.encode = some k := by
  cases k <;> rfl

theorem UnaryOp.decodeTag_tag (op : UnaryOp) : decodeTag all tag (.text op.tag) = some op := by
  cases op <;> rfl

theorem BinaryOp.decodeTag_tag (op : BinaryOp) : decodeTag all tag (.text op.tag) = some op := by
  cases op <;> rfl

theorem Owner.decode_encode (o : Owner) : Owner.decode o.encode = some o := by
  cases o <;> rfl

theorem texts?_encodeNames (names : List String) : (encodeNames names).texts? = some names := by
  rw [encodeNames, Data.texts?]
  induction names with
  | nil => rfl
  | cons n names ih => simp [List.mapM_cons, ih, Data.text?]

/-! ## Trees -/

/-- Whether all numbers of the constant are finite, if the node is a constant. -/
def Head.isFinite : Head → Bool
  | constant v => v.isFinite
  | _ => true

namespace Expr

/-- Whether all numbers in the constants of the tree are finite. -/
def isFinite : Expr → Bool :=
  bottomUp fun e inner => e.head.isFinite && inner.all id

theorem isFinite_eq (e : Expr) : e.isFinite = (e.head.isFinite && e.children.all isFinite) := by
  rw [isFinite, bottomUp_eq, List.all_map]
  rfl

theorem encodeItems_eq (xs : List Expr) : encodeItems form xs = xs.map (encode form) := by
  induction xs with
  | nil => rfl
  | cons x xs ih => rw [encodeItems, ih, List.map_cons]

theorem decodeItems_eq (ds : List Data) : decodeItems form ds = ds.mapM (decode form) := by
  induction ds with
  | nil => rfl
  | cons d ds ih =>
    rw [decodeItems, ih, List.mapM_cons]
    cases decode form d <;> cases ds.mapM (decode form) <;> rfl

theorem decodePairs_encodeFields (fs : List (String × Expr)) :
    decodePairs form (encodeFields form fs) =
      (((fs.map Prod.snd).map (encode form)).mapM (decode form)).map ((fs.map Prod.fst).zip ·) := by
  induction fs with
  | nil => rfl
  | cons f fs ih =>
    obtain ⟨n, x⟩ := f
    rw [encodeFields, decodePairs, ih, List.map_cons, List.map_cons, List.map_cons, List.mapM_cons]
    cases decode form (x.encode form) <;>
      cases ((fs.map Prod.snd).map (encode form)).mapM (decode form) <;> rfl

/-- **A node is read from its children:** unless it is a constant, it is the same node with what is
read of each child. -/
theorem decode_encode_eq {e : Expr} (h : ∀ v, e.head ≠ .constant v) :
    decode form (e.encode form) =
      ((e.children.map (encode form)).mapM (decode form)).map e.withChildren := by
  cases e with
  | constant v => exact absurd rfl (h v)
  | parameter n | source n => rfl
  | quote x =>
    rw [encode, Data.variant, decode]
    cases hx : decode form (x.encode form) <;> simp [children, hx, withChildren]
  | record fs =>
    rw [encode, Data.variant, decode, decodeFields, decodePairs_encodeFields, Option.map_map]
    rfl
  | list xs =>
    rw [encode, Data.variant, decode, decodeList, decodeItems_eq, encodeItems_eq]
    rfl
  | member t n =>
    simp only [encode, decode, Data.variant, Data.isStructure, treeAt, treeField, Data.at?]
    cases ht : decode form (t.encode form) <;> simp [children, ht, Data.text?, withChildren]
  | unary op x =>
    simp only [encode, decode, Data.variant, Data.isStructure, treeAt, treeField, Data.at?]
    cases hx : decode form (x.encode form) <;> simp [children, hx, op.decodeTag_tag, withChildren]
  | convert x k =>
    simp only [encode, decode, Data.variant, Data.isStructure, treeAt, treeField, Data.at?]
    cases hx : decode form (x.encode form) <;> simp [children, hx, k.decode_encode, withChildren]
  | lambda ps b =>
    simp only [encode, decode, Data.variant, Data.isStructure, treeAt, treeField, Data.at?]
    cases hb : decode form (b.encode form) <;> simp [children, hb, texts?_encodeNames, withChildren]
  | binary op a b =>
    simp only [encode, decode, Data.variant, Data.isStructure, treeAt, treeField, Data.at?]
    cases ha : decode form (a.encode form) <;> cases hb : decode form (b.encode form) <;>
      simp [children, ha, hb, op.decodeTag_tag, withChildren]
  | conditional t a b =>
    simp only [encode, decode, Data.variant, Data.isStructure, treeAt, treeField]
    cases ht : decode form (t.encode form) <;> cases ha : decode form (a.encode form) <;>
      cases hb : decode form (b.encode form) <;> simp [children, ht, ha, hb, withChildren]
  | invoke f args =>
    simp only [encode, decode, Data.variant, Data.isStructure, treeAt, treeField, treesAt,
      treesField, decodeList, decodeItems_eq, encodeItems_eq]
    cases hf : decode form (f.encode form) <;>
      cases hargs : (args.map (encode form)).mapM (decode form) <;>
        simp [children, hf, hargs, withChildren]
  | call o m r args =>
    simp only [encode, decode, Data.variant, Data.isStructure, treeAt, treeField, treesAt,
      treesField, decodeList, decodeItems_eq, encodeItems_eq, Data.at?]
    cases hr : decode form (r.encode form) <;>
      cases hargs : (args.map (encode form)).mapM (decode form) <;>
        simp [children, hr, hargs, o.decode_encode, Data.text?, withChildren]

theorem mapM_eq_some {α β : Type} {read : β → Option α} {write : α → β} {xs : List α}
    (h : ∀ x ∈ xs, read (write x) = some x) : (xs.map write).mapM read = some xs := by
  induction xs with
  | nil => rfl
  | cons x xs ih =>
    obtain ⟨hx, hxs⟩ := List.forall_mem_cons.mp h
    rw [List.map_cons, List.mapM_cons, hx, ih hxs]
    rfl

theorem mapM_eq_none {α β : Type} {read : β → Option α} {write : α → β} {xs : List α} {x : α}
    (hx : x ∈ xs) (h : read (write x) = none) : (xs.map write).mapM read = none := by
  induction hx with
  | head xs => rw [List.map_cons, List.mapM_cons, h]; rfl
  | @tail y xs _ ih =>
    rw [List.map_cons, List.mapM_cons, ih]
    cases read (write y) <;> rfl

/-- **A tree of finite numbers is read as it was written.** -/
theorem decode_encode (hform : form.KeepsFinite) {e : Expr} (h : e.isFinite) :
    decode form (e.encode form) = some e := by
  induction e using induction_on_children with
  | node e ih =>
    rw [isFinite_eq, Bool.and_eq_true, List.all_eq_true] at h
    by_cases hconstant : ∃ v, e.head = .constant v
    · obtain ⟨v, hv⟩ := hconstant
      cases e <;> cases hv
      rw [encode, Data.variant, decode, Value.decode_encode hform h.1, Option.map_some]
    · have hchildren := mapM_eq_some fun c hc => ih c hc (h.2 c hc)
      rw [decode_encode_eq (not_exists.mp hconstant), hchildren, Option.map_some,
        withChildren_children]

/-- A tree with another number is not read, if nothing is read of what is written of the number. -/
theorem decode_encode_eq_none (hform : form.DropsOthers) {e : Expr} (h : e.isFinite = false) :
    decode form (e.encode form) = none := by
  induction e using induction_on_children with
  | node e ih =>
    rw [isFinite_eq, Bool.and_eq_false_iff, List.all_eq_false] at h
    rcases h with hhead | ⟨c, hc, hchild⟩
    · cases e with
      | constant v =>
        rw [encode, Data.variant, decode, Value.decode_encode_eq_none hform hhead, Option.map_none]
      | _ => cases hhead
    · have hnode : ∀ v, e.head ≠ .constant v := by
        rintro v hv
        cases e <;> cases hv
        cases hc
      rw [decode_encode_eq hnode, mapM_eq_none hc (ih c hc (Bool.eq_false_iff.mpr hchild)),
        Option.map_none]

/-- **Trees of finite numbers are written without loss,** by any form that keeps finite numbers. Such a
tree is read as it was, and no other one is written alike. If nothing is read of what the form writes of
other numbers, no tree with such a number is written alike either. -/
theorem decode_encode_of_isFinite (hform : form.KeepsFinite) {e : Expr} (h : e.isFinite) :
    decode form (e.encode form) = some e ∧
    (∀ e' : Expr, e'.isFinite → e'.encode form = e.encode form → e' = e) ∧
    (form.DropsOthers → ∀ e' : Expr, e'.encode form = e.encode form → e' = e) := by
  have hread := decode_encode hform h
  have hunique : ∀ e' : Expr, e'.isFinite → e'.encode form = e.encode form → e' = e := by
    intro e' h' halike
    have hread' := decode_encode hform h'
    rw [halike, hread] at hread'
    exact (Option.some.inj hread').symm
  refine ⟨hread, hunique, fun hothers e' halike => hunique e' ?_ halike⟩
  by_contra hinfinite
  have hnone := decode_encode_eq_none hothers (Bool.eq_false_iff.mpr hinfinite)
  rw [halike, hread] at hnone
  cases hnone

end Expr

/-- Numbers as leaves of the data. A number that is not finite is written as null, and an integer is
read as a number too. -/
def NumberForm.leaves : NumberForm where
  write x := if x.isFinite then .float x else .null
  read?
    | .float x => some x
    | .int n => some (.ofInt n)
    | _ => none

theorem NumberForm.leaves_keepsFinite : leaves.KeepsFinite := by
  intro x hx
  simp [leaves, hx]

theorem NumberForm.leaves_dropsOthers : leaves.DropsOthers := by
  intro x hx
  simp [leaves, hx]

namespace Expr

/-- Repeated names, numbers within values and a negative zero. -/
def assorted : Expr :=
  .record [("x", .constant (.float (Float.ofBits 0x8000000000000000))),
    ("x", .call (.host "geo") "area" (.lambda ["r", "r"] (.convert (.parameter "r") .float))
      [.constant (.record [("n", .int (-1)), ("n", .list [.float 0.5, .null])])])]

theorem decode_encode_of_isFinite_assorted :
    NumberForm.leaves.KeepsFinite ∧ assorted.isFinite ∧
      decode .leaves (assorted.encode .leaves) = some assorted ∧
      (Expr.quote assorted).encode .leaves ≠ assorted.encode .leaves := by
  have hfinite : assorted.isFinite := by decide
  obtain ⟨hread, hunique, -⟩ := decode_encode_of_isFinite NumberForm.leaves_keepsFinite hfinite
  refine ⟨NumberForm.leaves_keepsFinite, hfinite, hread, fun halike => ?_⟩
  cases hunique (.quote assorted) (by decide) halike

end Expr

end QueryChain
