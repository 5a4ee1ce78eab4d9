namespace BlockCache.Text

def field (entry : String × String) : String :=
  entry.1 ++ ": " ++ entry.2

/-- A value in the form `Name`, then its fields in braces. -/
def record (name : String) (fields : List (String × String)) : String :=
  name ++ " \x7b " ++ ", ".intercalate (fields.map field) ++ " \x7d"

def openRecord (name : String) (fields : List (String × String)) : String :=
  name ++ " \x7b " ++ ", ".intercalate (fields.map field ++ [".."]) ++ " \x7d"

def applied (name argument : String) : String :=
  name ++ "(" ++ argument ++ ")"

end BlockCache.Text
