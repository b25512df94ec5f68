/-! The names of files, as far as they tell what a file holds. -/
namespace Tabulate.Text

/-- What follows the last point in the name of a file. A point in front starts no extension. -/
def extension? (file : String) : Option String :=
  let reversed := (file.toList.reverse.dropWhile (· = '/')).takeWhile (· ≠ '/')
  match reversed.dropWhile (· ≠ '.') with
  | [] | ['.'] => none
  | _ =>
    if reversed = ['.', '.'] then none
    else some (String.ofList (reversed.takeWhile (· ≠ '.')).reverse)

end Tabulate.Text
