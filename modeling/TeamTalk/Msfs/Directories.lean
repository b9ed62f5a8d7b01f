import TeamTalk.Msfs.FileManager

/-!
# The directories of msfs

`FileManager::initDir` makes the directories when the server starts, and `createFileRelatePath` chooses one of them for each file. The
product in `getSecondDir` is one of `int`s.
-/

namespace TeamTalk.Msfs

/-- `SECOND_DIR_MAX`. -/
def secondDirMax : Nat := 255

/-- `snprintf` of a number of a directory. -/
def dirName (i : Int) : Bytes := cut 5 (decimal3 i)

/-- The path of a directory, behind `m_disk`. -/
def dirPath (first second : Int) : Bytes := chars "/" ++ dirName first ++ chars "/" ++ dirName second

/-- What the loops of `initDir` make, in their order: `m_disk` itself, and each first directory in front of those in it. -/
def initDirs : List Bytes :=
  [] :: (List.range (firstDirMax + 1)).flatMap fun i : Nat =>
    (chars "/" ++ dirName i) :: (List.range (secondDirMax + 1)).map fun j : Nat => dirPath i j

/-- The calls of `mkdirNoRecursion`: the first that fails, other than with `EEXIST`, is the last. -/
def mkdirs (mkdir : Bytes → Bool) : List Bytes → Int × List Bytes
  | [] => (0, [])
  | dir :: dirs => if mkdir dir then ((mkdirs mkdir dirs).1, dir :: (mkdirs mkdir dirs).2) else (-1, [])

/-- `initDir`: the result, and the directories that are there. -/
def initDir (mkdir : Bytes → Bool) : Int × List Bytes := mkdirs mkdir initDirs

/-- Both numbers for a file, the second computed with a product that may overflow. -/
def directories (cfg : Config) (totFiles : Nat) : Exec (Int × Int) :=
  if cfg.filesPerDir * firstDirMax < 2 ^ 31 then .ok (getFirstDir cfg totFiles, getSecondDir cfg totFiles) else .error .undefinedBehaviour

end TeamTalk.Msfs
