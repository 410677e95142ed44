namespace EndpointCatalog.Json

inductive Value where
  | null
  | bool (b : Bool)
  | integer (n : Int)
  | float (x : Float)
  | text (s : String)
  | list (items : List Value)
  | fields (entries : List (String × Value))

def insert (name : String) (value : Value) : List (String × Value) → List (String × Value)
  | [] => [(name, value)]
  | (k, v) :: es =>
    if name < k then (name, value) :: (k, v) :: es
    else if name = k then (name, value) :: es
    else (k, v) :: insert name value es

end EndpointCatalog.Json
