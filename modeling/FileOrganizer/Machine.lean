import FileOrganizer.Bytes.Sha256
import FileOrganizer.Shell

/-!
The machine that the program runs on: contents are known by their SHA-256 and taken for what their first
bytes tell, archives are Zip archives, and the programs are those of the shell.
-/

namespace FileOrganizer

def Host.machine (who : Actor) (home : Path) (sessionId : String) : Host :=
  { who with
    home, sessionId
    digest := Sha256.hex
    kindOf := FileKind.ofBytes?
    pack := Zip.pack
    unpack := Zip.members?
    launch := Shell.launch who }

end FileOrganizer
