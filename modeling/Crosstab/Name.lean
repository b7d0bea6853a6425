namespace Crosstab

/-- What a name is compared by: its characters, ASCII letters in lower case. -/
def foldCase (name : String) : List Char := name.toList.map Char.toLower

def lowerAscii (name : String) : String := String.ofList (foldCase name)

/-- Two names that differ at most in the case of ASCII letters. -/
def SameName (a b : String) : Prop := foldCase a = foldCase b

instance (a b : String) : Decidable (SameName a b) := inferInstanceAs (Decidable (_ = _))

theorem SameName.refl (a : String) : SameName a a := rfl

theorem SameName.symm {a b : String} (h : SameName a b) : SameName b a := Eq.symm h

theorem SameName.trans {a b c : String} (h : SameName a b) (h' : SameName b c) : SameName a c :=
  Eq.trans h h'

end Crosstab
