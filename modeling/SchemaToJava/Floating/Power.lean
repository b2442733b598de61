/-!
Powers of two and of ten. The ranges of words and of significands, and the places of decimals, are
counted in them.
-/
namespace SchemaToJava.Floating

def twoTo (n : Nat) : Nat := Nat.pow 2 n

def tenTo (n : Nat) : Nat := Nat.pow 10 n

end SchemaToJava.Floating
