import Tamga.Library.JsonText
import Tamga.Library.Serde

namespace Library.JsonTree

open Library.JsonText
open Library.Serde

mutual

def tree : Value → Json
  | .null => .null
  | .bool value => .bool value
  | .int i => .number (.ofInt i)
  | .string text => .string (some text)
  | .array items => .array (treeItems items)
  | .object members => .object (treeMembers members)

def treeItems : List Value → List Json
  | [] => []
  | item :: items => tree item :: treeItems items

def treeMembers : List (String × Value) → Members
  | [] => []
  | (key, value) :: members => (some key, tree value) :: treeMembers members

end

@[simp] theorem treeItems_eq (items : List Value) : treeItems items = items.map tree := by
  induction items with
  | nil => rfl
  | cons item items ih => rw [treeItems, ih, List.map_cons]

def treeMember (m : String × Value) : Token × Json := (some m.1, tree m.2)

@[simp] theorem treeMembers_eq (members : List (String × Value)) :
    treeMembers members = members.map treeMember := by
  induction members with
  | nil => rfl
  | cons m members ih => rw [treeMembers, ih, List.map_cons, treeMember]

theorem ofInt_injective : Function.Injective Number.ofInt := by
  intro i j h
  have hread := congrArg Number.toInt? h
  rw [Number.toInt_ofInt, Number.toInt_ofInt] at hread
  exact Option.some.inj hread

theorem eq_of_map_eq {α β : Type} {f : α → β} {l l' : List α}
    (hinj : ∀ x ∈ l, ∀ y, f x = f y → x = y) (h : l.map f = l'.map f) : l = l' := by
  induction l generalizing l' with
  | nil => exact (List.map_eq_nil_iff.mp h.symm).symm
  | cons x l ih =>
      cases l' with
      | nil => cases h
      | cons y l' =>
          obtain ⟨hhead, htail⟩ := List.cons.inj h
          rw [hinj x List.mem_cons_self y hhead,
            ih (fun x hx => hinj x (List.mem_cons_of_mem _ hx)) htail]

theorem tree_injective : Function.Injective tree := by
  intro v
  induction v using Value.induct with
  | null => intro w h; cases w <;> simp_all [tree]
  | bool value => intro w h; cases w <;> simp_all [tree]
  | int i =>
      intro w h
      cases w with
      | int j => exact congrArg Value.int (ofInt_injective (Json.number.inj h))
      | _ => simp [tree] at h
  | string text => intro w h; cases w <;> simp_all [tree]
  | array items ih =>
      intro w h
      cases w with
      | array items' =>
          simp only [tree, treeItems_eq, Json.array.injEq] at h
          rw [eq_of_map_eq (fun item hmem _ => @ih item hmem _) h]
      | _ => simp [tree] at h
  | object members ih =>
      intro w h
      cases w with
      | object members' =>
          simp only [tree, treeMembers_eq, Json.object.injEq] at h
          have hmember (m : String × Value) (hmem : m ∈ members) (m' : String × Value)
              (heq : treeMember m = treeMember m') : m = m' := by
            obtain ⟨hkey, hvalue⟩ := Prod.mk.inj heq
            exact Prod.ext (Option.some.inj hkey) (ih m hmem hvalue)
          rw [eq_of_map_eq hmember h]
      | _ => simp [tree] at h

end Library.JsonTree
