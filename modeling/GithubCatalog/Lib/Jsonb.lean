import GithubCatalog.Lib.TextCode

/-!
# `jsonb` values

The value type of a `jsonb` column, with the two readers SQL applies to one: `->>` (a member as text)
and `#>>` (a path as text).  SQL's null is `none`; a JSON `null` member also reads as SQL null.
Numbers carry their canonical text, because no query computes with them.
-/

/-- A `jsonb` value; the members of an object stand in their stored order. -/
inductive Jsonb where
  | null
  | bool (value : Bool)
  | num (text : String)
  | str (value : String)
  | arr (items : List Jsonb)
  | obj (members : List (String × Jsonb))

namespace Jsonb

mutual

/-- Equality of `jsonb` values is decidable (`=` on a `jsonb` column). -/
def decEq : (a b : Jsonb) → Decidable (a = b)
  | .null, .null => isTrue rfl
  | .bool a, .bool b => decidable_of_iff (a = b) (by simp)
  | .num a, .num b => decidable_of_iff (a = b) (by simp)
  | .str a, .str b => decidable_of_iff (a = b) (by simp)
  | .arr a, .arr b =>
    have := decEqItems a b
    decidable_of_iff (a = b) (by simp)
  | .obj a, .obj b =>
    have := decEqMembers a b
    decidable_of_iff (a = b) (by simp)
  | .null, .bool _ | .null, .num _ | .null, .str _ | .null, .arr _ | .null, .obj _ =>
    isFalse (by simp)
  | .bool _, .null | .bool _, .num _ | .bool _, .str _ | .bool _, .arr _ | .bool _, .obj _ =>
    isFalse (by simp)
  | .num _, .null | .num _, .bool _ | .num _, .str _ | .num _, .arr _ | .num _, .obj _ =>
    isFalse (by simp)
  | .str _, .null | .str _, .bool _ | .str _, .num _ | .str _, .arr _ | .str _, .obj _ =>
    isFalse (by simp)
  | .arr _, .null | .arr _, .bool _ | .arr _, .num _ | .arr _, .str _ | .arr _, .obj _ =>
    isFalse (by simp)
  | .obj _, .null | .obj _, .bool _ | .obj _, .num _ | .obj _, .str _ | .obj _, .arr _ =>
    isFalse (by simp)

def decEqItems : (a b : List Jsonb) → Decidable (a = b)
  | [], [] => isTrue rfl
  | [], _ :: _ | _ :: _, [] => isFalse (by simp)
  | x :: xs, y :: ys =>
    have := decEq x y
    have := decEqItems xs ys
    decidable_of_iff (x = y ∧ xs = ys) (by simp)

def decEqMembers : (a b : List (String × Jsonb)) → Decidable (a = b)
  | [], [] => isTrue rfl
  | [], _ :: _ | _ :: _, [] => isFalse (by simp)
  | (k, x) :: xs, (l, y) :: ys =>
    have := decEq x y
    have := decEqMembers xs ys
    decidable_of_iff (k = l ∧ x = y ∧ xs = ys) (by simp [and_assoc])

end

instance : DecidableEq Jsonb := decEq

/-- `jsonb_typeof(value) = 'object'`. -/
def isObject : Jsonb → Bool
  | .obj _ => true
  | _ => false

/-- `jsonb_typeof(value) = 'array'`. -/
def isArray : Jsonb → Bool
  | .arr _ => true
  | _ => false

/-- `value -> key`: the member of an object, null on every other value. -/
def member (key : String) : Jsonb → Option Jsonb
  | .obj members => members.lookup key
  | _ => none

mutual

/-- The text form of a stored value. -/
def render : Jsonb → List Char
  | .null => "null".toList
  | .bool true => "true".toList
  | .bool false => "false".toList
  | .num text => text.toList
  | .str value => TextCode.writeString value
  | .arr items => '[' :: renderItems items
  | .obj members => '{' :: renderMembers members

def renderItems : List Jsonb → List Char
  | [] => [']']
  | [x] => render x ++ [']']
  | x :: y :: rest => render x ++ (", ".toList ++ renderItems (y :: rest))

def renderMembers : List (String × Jsonb) → List Char
  | [] => ['}']
  | [(k, x)] => TextCode.writeString k ++ (": ".toList ++ (render x ++ ['}']))
  | (k, x) :: y :: rest =>
    TextCode.writeString k ++
      (": ".toList ++ (render x ++ (", ".toList ++ renderMembers (y :: rest))))

end

/-- A value read as text: a string is its contents, a JSON null is SQL's null. -/
def asText : Jsonb → Option String
  | .null => none
  | .str value => some value
  | other => some (String.ofList (render other))

/-- `value ->> key`. -/
def memberText (key : String) (value : Jsonb) : Option String := (value.member key).bind asText

/-- `value #> path`, for paths of object keys. -/
def path : List String → Jsonb → Option Jsonb
  | [], value => some value
  | key :: keys, value => (value.member key).bind (path keys)

/-- `value #>> path`. -/
def pathText (keys : List String) (value : Jsonb) : Option String := (value.path keys).bind asText

/-- A `text` or `jsonb` column stores no character U+0000. -/
def storableText (text : String) : Bool := !text.toList.contains (Char.ofNat 0)

mutual

/-- Every text of the value can be stored. -/
def storable : Jsonb → Bool
  | .null | .bool _ | .num _ => true
  | .str value => storableText value
  | .arr items => storableItems items
  | .obj members => storableMembers members

def storableItems : List Jsonb → Bool
  | [] => true
  | x :: xs => storable x && storableItems xs

def storableMembers : List (String × Jsonb) → Bool
  | [] => true
  | (key, x) :: rest => storableText key && storable x && storableMembers rest

end

end Jsonb
