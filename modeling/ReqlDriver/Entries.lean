namespace ReqlDriver.Entries

variable {α β : Type}

def Sorted (es : List (String × α)) : Prop := es.Pairwise fun a b => a.1 < b.1

def insert (key : String) (value : α) : List (String × α) → List (String × α)
  | [] => [(key, value)]
  | e :: r =>
    if key < e.1 then (key, value) :: e :: r
    else if key = e.1 then (key, value) :: r
    else e :: insert key value r

/-- Puts entries in one after the other, so that the last one of a key stays. -/
def extend (es : List (String × α)) (added : List (String × α)) : List (String × α) :=
  added.foldl (fun es e => insert e.1 e.2 es) es

def ofList (added : List (String × α)) : List (String × α) := extend [] added

def get? (es : List (String × α)) (key : String) : Option α := es.lookup key

def contains (es : List (String × α)) (key : String) : Bool := (get? es key).isSome

def keys (es : List (String × α)) : List String := es.map (·.1)

def mapValues (f : α → β) (es : List (String × α)) : List (String × β) :=
  es.map fun e => (e.1, f e.2)

end ReqlDriver.Entries
