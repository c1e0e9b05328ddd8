import ClusterRouter.Foundation.IPAddress

/-! `path.Clean` on the elements of a path. -/

set_option autoImplicit false

namespace ClusterRouter.Foundation

namespace FilePath

def slash : UInt8 := 47

def dotElement : Bytes := lit "."

def dotDotElement : Bytes := lit ".."

/-- One element onto the cleaned path, whose last element stands first. -/
def cleanStep (rooted : Bool) (out : List Bytes) (element : Bytes) : List Bytes :=
  if element = [] ∨ element = dotElement then out
  else if element = dotDotElement then
    match out with
    | [] => if rooted then [] else [dotDotElement]
    | last :: rest => if last = dotDotElement then dotDotElement :: out else rest
  else element :: out

def clean (path : Bytes) : Bytes :=
  let rooted := decide (path.head? = some slash)
  let out := ((Bytes.split slash path).foldl (cleanStep rooted) []).reverse
  if rooted then slash :: join slash out
  else if out = [] then dotElement
  else join slash out

end FilePath

end ClusterRouter.Foundation
