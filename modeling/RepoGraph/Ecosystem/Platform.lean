import RepoGraph.Ecosystem
/-!
# Platform libraries

Which references outside the repository belong to the library that comes with a platform, and which
to a package registry.
-/
namespace RepoGraph

def pythonModules : List String :=
  ["__future__", "_thread", "abc", "argparse", "array", "ast", "asyncio", "atexit", "base64",
    "bdb", "binascii", "bisect", "builtins", "bz2", "calendar", "cgi", "cmath", "cmd", "code",
    "codecs", "collections", "colorsys", "compileall", "concurrent", "configparser", "contextlib",
    "contextvars", "copy", "copyreg", "cProfile", "csv", "ctypes", "curses", "dataclasses",
    "datetime", "dbm", "decimal", "difflib", "dis", "doctest", "email", "encodings", "ensurepip",
    "enum", "errno", "faulthandler", "fcntl", "filecmp", "fileinput", "fnmatch", "fractions",
    "ftplib", "functools", "gc", "getopt", "getpass", "gettext", "glob", "graphlib", "grp", "gzip",
    "hashlib", "heapq", "hmac", "html", "http", "imaplib", "importlib", "inspect", "io",
    "ipaddress", "itertools", "json", "keyword", "linecache", "locale", "logging", "lzma",
    "mailbox", "marshal", "math", "mimetypes", "mmap", "multiprocessing", "netrc", "numbers",
    "operator", "optparse", "os", "pathlib", "pdb", "pickle", "pkgutil", "platform", "plistlib",
    "poplib", "posix", "pprint", "profile", "pstats", "pty", "pwd", "py_compile", "queue",
    "quopri", "random", "re", "readline", "reprlib", "resource", "rlcompleter", "runpy", "sched",
    "secrets", "select", "selectors", "shelve", "shlex", "shutil", "signal", "site", "smtplib",
    "socket", "socketserver", "sqlite3", "ssl", "stat", "statistics", "string", "stringprep",
    "struct", "subprocess", "symtable", "sys", "sysconfig", "syslog", "tabnanny", "tarfile",
    "tempfile", "termios", "textwrap", "threading", "time", "timeit", "tkinter", "token",
    "tokenize", "tomllib", "trace", "traceback", "tracemalloc", "tty", "turtle", "types", "typing",
    "unicodedata", "unittest", "urllib", "uuid", "venv", "warnings", "wave", "weakref",
    "webbrowser", "winreg", "wsgiref", "xml", "xmlrpc", "zipapp", "zipfile", "zipimport", "zlib",
    "zoneinfo"]

def javaPlatformRoots : List String := ["java", "javax", "jdk", "sun", "kotlin"]

def dotnetPlatformRoots : List String := ["System", "Microsoft", "Windows"]

def rustPlatformCrates : List String := ["std", "core", "alloc", "proc_macro", "test"]

def beforeDot (token : String) : String := String.ofList (token.toList.takeWhile (· != '.'))

def beforeColons (token : String) : String :=
  match Text.cut? [':', ':'] token.toList with
  | some (first, _) => String.ofList first
  | none => token

def isPythonStdlib (name : String) : Bool := pythonModules.contains (beforeDot name)

def startsAtHost (token : String) : Bool := (token.toList.takeWhile (· != '/')).contains '.'

/-- The ecosystem of a reference that a file of a language makes outside its repository. -/
def Ecosystem.ofReference (language : Language) (token : String) : Ecosystem :=
  match language.family with
  | .python => if isPythonStdlib token then pythonStdlib else pypi
  | .javaScript => npm
  | .go => if startsAtHost token then go else goStdlib
  | .java => if javaPlatformRoots.contains (beforeDot token) then jdk else maven
  | .cSharp => if dotnetPlatformRoots.contains (beforeDot token) then dotnet else nuget
  | .php => composer
  | .ruby => gem
  | .rust => if rustPlatformCrates.contains (beforeColons token) then rustStd else crates
  | _ => system

end RepoGraph
