/-!
The width of a text: the number of bytes that its characters take in UTF-8.
-/
namespace SchemaToJava.Text

def byteCount (cs : List Char) : Nat := cs.foldl (fun n c => n + c.utf8Size) 0

end SchemaToJava.Text
