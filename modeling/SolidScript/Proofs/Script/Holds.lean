import SolidScript.Proofs.Shape.Built
import SolidScript.Script.Step

/-!
# What holds of all shapes in a value

A property of shapes is one of values: it holds of the shapes in a value, of the elements of its
sequences, and of what its calls name. Reading values as items keeps it.
-/

set_option autoImplicit false

namespace SolidScript.Script

variable {P Q : Shape → Prop}

mutual

def Value.Holds (P : Shape → Prop) : Value → Prop
  | .scalar _ | .vector _ | .color _ | .aim _ => True
  | .shape s => P s
  | .list items => itemsHold P items
  | .copies s => ∀ i, Yields P (s.element i)
  | .calls _ base cs => base.Holds P ∧ callsHold P cs
  | .image source f => source.Holds P ∧ f.Holds P

def Item.Holds (P : Shape → Prop) : Item → Prop
  | .mk _ v => v.Holds P

def itemsHold (P : Shape → Prop) : List Item → Prop
  | [] => True
  | item :: items => item.Holds P ∧ itemsHold P items

def Operand.Holds (P : Shape → Prop) : Operand → Prop
  | .item i => i.Holds P
  | .routine calls _ _ => callsHold P calls

def Argument.Holds (P : Shape → Prop) : Argument → Prop
  | .literal i => i.Holds P
  | .list items | .vector items => argumentsHold P items
  | .step _ | .self | .index => True
  | .routine calls _ => callsHold P calls

def argumentsHold (P : Shape → Prop) : List Argument → Prop
  | [] => True
  | a :: as => a.Holds P ∧ argumentsHold P as

def Call.Holds (P : Shape → Prop) : Call → Prop
  | .mk _ arguments => argumentsHold P arguments

def callsHold (P : Shape → Prop) : List Call → Prop
  | [] => True
  | c :: cs => c.Holds P ∧ callsHold P cs

end

@[simp] theorem itemsHold_iff {items : List Item} :
    itemsHold P items ↔ ∀ item ∈ items, item.Holds P := by
  induction items with
  | nil => simp [itemsHold]
  | cons item items ih => simp [itemsHold, ih]

@[simp] theorem argumentsHold_iff {as : List Argument} :
    argumentsHold P as ↔ ∀ a ∈ as, a.Holds P := by
  induction as with
  | nil => simp [argumentsHold]
  | cons a as ih => simp [argumentsHold, ih]

attribute [simp] Value.Holds Item.Holds Operand.Holds Argument.Holds Call.Holds

theorem Item.holds_value {a : Item} : a.value.Holds P ↔ a.Holds P := by
  cases a
  simp [Item.value]

@[simp] theorem Item.holds_new {v : Value} : (Item.new v).Holds P ↔ v.Holds P := by simp [Item.new]

theorem Operand.toItem_holds {o : Operand} (h : o.Holds P) : o.toItem.Holds P := by
  cases o with
  | item i => simpa [toItem] using h
  | routine _ _ _ => simp [toItem]

theorem Operand.toValue_holds {o : Operand} (h : o.Holds P) : o.toValue.Holds P :=
  Item.holds_value.2 (toItem_holds h)

mutual

theorem Item.settle_holds (step place : Nat) : ∀ item : Item, item.Holds P →
    (item.settle step place).1.Holds P
  | .mk (some o) v, h => by simpa [Item.settle] using h
  | .mk none v, h => by
    simp only [Item.settle, Item.Holds] at h ⊢
    exact v.settle_holds step (place + 1) h

theorem Value.settle_holds (step place : Nat) : ∀ v : Value, v.Holds P →
    (v.settle step place).1.Holds P
  | .list items, h => by
    simp only [Value.settle, Value.Holds] at h ⊢
    exact settleAll_holds step place items h
  | .calls n base cs, h => by
    simp only [Value.settle, Value.Holds] at h ⊢
    exact ⟨base.settle_holds step place h.1, h.2⟩
  | .image source f, h => by
    simp only [Value.settle, Value.Holds] at h ⊢
    exact ⟨source.settle_holds step place h.1, h.2⟩
  | .scalar _, _ | .vector _, _ | .color _, _ | .aim _, _ => by simp [Value.settle]
  | .shape _, h | .copies _, h => by simpa [Value.settle] using h

theorem settleAll_holds (step place : Nat) : ∀ items : List Item, itemsHold P items →
    itemsHold P (settleAll step place items).1
  | [], _ => by simp [settleAll]
  | item :: items, h => by
    simp only [settleAll, itemsHold] at h ⊢
    exact ⟨item.settle_holds step place h.1, settleAll_holds step _ items h.2⟩

end

end SolidScript.Script
