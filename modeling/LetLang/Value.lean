import LetLang.Number.Basic

namespace LetLang

inductive Value where
  | null
  | number (x : Number)
  | boolean (b : Bool)
  | object (fields : List (String × Value))

abbrev Fields := List (String × Value)

namespace Fields

def put (key : String) (value : Value) : Fields → Fields
  | [] => [(key, value)]
  | (k, v) :: rest => if k = key then (key, value) :: rest else (k, v) :: put key value rest

def get? (fields : Fields) (key : String) : Option Value :=
  (fields.find? (·.1 == key)).map (·.2)

def ofList (entries : List (String × Value)) : Fields :=
  entries.foldl (fun fields e => fields.put e.1 e.2) []

theorem get?_put (fields : Fields) (key key' : String) (value : Value) :
    (fields.put key value).get? key' = if key' = key then some value else fields.get? key' := by
  induction fields with
  | nil =>
    by_cases h : key' = key
    · simp [put, get?, h]
    · simp [put, get?, h, Ne.symm h]
  | cons e rest ih =>
    obtain ⟨k, v⟩ := e
    simp only [put]
    split
    · rename_i hk
      subst hk
      by_cases h : key' = k
      · simp [get?, h]
      · simp [get?, h, Ne.symm h]
    · rename_i hk
      by_cases h : k = key'
      · subst h
        simp [get?, hk]
      · simp only [get?] at ih ⊢
        simp [beq_eq_false_iff_ne.mpr h, ih]

theorem map_fst_put (fields : Fields) (key : String) (value : Value) :
    (fields.put key value).map (·.1) =
      if key ∈ fields.map (·.1) then fields.map (·.1) else fields.map (·.1) ++ [key] := by
  induction fields with
  | nil => simp [put]
  | cons e rest ih =>
    obtain ⟨k, v⟩ := e
    simp only [put]
    split
    · rename_i hk
      simp [hk]
    · rename_i hk
      simp only [List.map_cons, ih, List.mem_cons, Ne.symm hk, false_or]
      split <;> simp

end Fields

namespace Value

def typeName : Value → String
  | null => "null"
  | number _ => "number"
  | boolean _ => "boolean"
  | object _ => "object"

mutual

def same : Value → Value → Bool
  | null, null => true
  | number x, number y => x.sameValue y
  | boolean a, boolean b => a == b
  | object fields, object fields' => sameFields fields fields'
  | _, _ => false

def sameFields : List (String × Value) → List (String × Value) → Bool
  | [], [] => true
  | (k, v) :: rest, (k', v') :: rest' => k == k' && same v v' && sameFields rest rest'
  | _, _ => false

end

end Value

end LetLang
