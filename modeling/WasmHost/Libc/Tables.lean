import WasmHost.Libc.Function

set_option autoImplicit false

/-! # The tables of the C library

Which names the library has. A name with an implementation is a function that can be called; the
other names are there so that programs that mention them can be linked, and fail only if they call
them. A program is linked against the tables in the order of `libraries`: of two tables that have a
name, the later one counts. -/

namespace WasmHost.Libc

namespace Tables

/-! ## Entries -/

/-- Entries of a table that belong together. -/
abbrev Entries := List (String × Stub Function)

/-- A table. -/
def table (name : String) (entries : List Entries) : StubLibrary Function :=
  ⟨name, entries.flatten⟩

/-- Names without an implementation. -/
def missing (names : List String) : Entries := names.map fun name => (name, .placeholder)

/-- Names of one function. -/
def stub (f : Function) (names : List String) : Entries :=
  names.map fun name => (name, .implemented f)

/-- Names of a function whose arguments are words. -/
def word (f : WordFunction) : List String → Entries := stub (.word f)

/-- Names of the test of a character class. -/
def chars (k : CharClass) : List String → Entries := word (.charClass k)

/-- Names of a question about memory. -/
def query (q : MemoryQuery) : List String → Entries := word (.query q)

/-- Names of a change of memory. -/
def edit (e : MemoryEdit) : List String → Entries := word (.edit e)

/-- Functions that end the program; each reports the name it was called by. -/
def exits (names : List String) : Entries :=
  names.map fun name => (name, .implemented (.word (.exit name)))

/-- Names of a function of one real number. -/
def unary (f : RealFunction) : List String → Entries := stub (.math (.function f))

/-- Names of a function of two real numbers. -/
def binary (op : RealOperation) : List String → Entries := stub (.math (.operation op))

/-- Names of a comparison of two real numbers. -/
def relation (r : RealRelation) : List String → Entries := stub (.math (.relation r))

/-- Names of a test of a real number. -/
def test (t : RealTest) : List String → Entries := stub (.math (.test t))

/-- Names of another function of real numbers. -/
def other (f : MathFunction) : List String → Entries := stub (.math f)

/-! ## Tables -/

/-- Names that programs may import without ever calling them. They come first, so that every other
    table takes precedence. -/
def compat : StubLibrary Function :=
  table "compat" [
    missing
      ["abort", "__addtf3", "__block_all_sigs", "__divtf3", "__dl_invalid_handle", "__dl_seterr",
       "_Exit", "__extenddftf2", "__extendsftf2", "fcntl", "fdopen", "__fdopen", "feclearexcept",
       "fegetround", "feraiseexcept", "fesetround", "fetestexcept", "__fixtfdi", "__fixtfsi",
       "__floatscan", "__floatsitf", "fprintf", "iswctype", "iswspace", "__lctrans",
       "__lctrans_cur", "__lock", "__lockfile", "__lttf2", "__madvise", "mbtowc", "__mmap",
       "__mremap", "__multf3", "__munmap", "nanosleep", "__netf2", "posix_spawn",
       "posix_spawn_file_actions_adddup2", "posix_spawn_file_actions_destroy",
       "posix_spawn_file_actions_init", "pthread_self", "__randname", "__rem_pio2_large",
       "setitimer", "__set_thread_area", "snprintf", "sprintf", "__stdio_write", "__stdout_write",
       "__synccall", "towlower", "towupper", "__trunctfdf2", "__trunctfsf2", "uname", "__unlock",
       "__unlockfile", "vfprintf", "vfscanf", "vsnprintf", "wctype"]]

/-- Functions that compilers call by themselves. -/
def builtins : StubLibrary Function :=
  table "builtins" [
    missing
      ["__builtin_apply_args", "__builtin_apply", "__builtin_return", "__builtin_va_arg_pack",
       "__builtin_va_arg_pack_len"],
    word .malloc ["__builtin_malloc"]]

/-- The functions of `ctype.h`. -/
def ctype : StubLibrary Function :=
  table "ctype" [
    chars .alnum ["isalnum"],
    chars .alpha ["isalpha"],
    chars .blank ["isblank"],
    chars .cntrl ["iscntrl"],
    chars .digit ["isdigit"],
    chars .graph ["isgraph"],
    chars .lower ["islower"],
    chars .print ["isprint"],
    chars .punct ["ispunct"],
    chars .space ["isspace"],
    chars .upper ["isupper"],
    chars .xdigit ["isxdigit"],
    word .tolower ["tolower"],
    word .toupper ["toupper"]]

/-- The functions of `math.h`. -/
def math : StubLibrary Function :=
  table "math" [
    unary .cos ["cos"],
    unary .sin ["sin"],
    unary .tan ["tan"],
    unary .acos ["acos"],
    unary .asin ["asin"],
    unary .atan ["atan"],
    binary .atan2 ["atan2"],
    unary .cosh ["cosh"],
    unary .sinh ["sinh"],
    unary .tanh ["tanh"],
    unary .acosh ["acosh"],
    unary .asinh ["asinh"],
    unary .atanh ["atanh"],
    unary .exp ["exp"],
    unary .exp2 ["exp2"],
    unary .expm1 ["expm1"],
    unary .log ["log"],
    unary .log10 ["log10"],
    unary .log1p ["log1p"],
    unary .log2 ["log2"],
    missing ["frexp", "ldexp", "modf", "ilogb", "logb", "scalbn", "scalbln"],
    binary .pow ["pow"],
    unary .sqrt ["sqrt"],
    unary .cbrt ["cbrt"],
    binary .hypot ["hypot"],
    missing ["erf", "erfc", "tgamma", "lgamma"],
    unary .ceil ["ceil"],
    unary .floor ["floor"],
    binary .fmod ["fmod"],
    unary .trunc ["trunc"],
    unary .round ["round"],
    other .roundToInteger ["lround", "llround"],
    missing ["rint", "lrint", "llrint", "nearbyint", "remainder", "remquo"],
    binary .copysign ["copysign"],
    other .notANumber ["nan"],
    missing ["nextafter", "nexttoward"],
    binary .fdim ["fdim"],
    binary .fmax ["fmax"],
    binary .fmin ["fmin"],
    unary .fabs ["fabs"],
    test .category ["fpclassify"],
    test .isFinite ["isfinite", "isfinitef", "isfinitel"],
    test .isInfinite ["isinf", "isinff", "isinfl"],
    test .isNaN ["isnan", "isnanf", "isnanl"],
    test .isNormal ["isnormal"],
    test .signBit ["signbit"],
    relation .greater ["isgreater"],
    relation .greaterEqual ["isgreaterequal"],
    relation .less ["isless"],
    relation .lessEqual ["islessequal"],
    relation .lessGreater ["islessgreater"],
    relation .unordered ["isunordered"],
    test .isFinite
      ["finite", "finitef", "finitel", "__builtin_finite", "__builtin_finitef",
       "__builtin_finitel"],
    test .isInfinite ["__builtin_isinf", "__builtin_isinff", "__builtin_isinfl"],
    test .isNaN ["__builtin_isnan", "__builtin_isnanf", "__builtin_isnanl"],
    missing ["__builtin_clrsb", "__builtin_clrsbl", "__builtin_clrsbll"]]

/-- Helpers of compilers for numbers of 128 bits. None are provided. -/
def runtime : StubLibrary Function :=
  table "runtime" [
    missing
      ["__addtf3", "__divtf3", "__eqtf2", "__fixsfti", "__fixtfdi", "__fixtfsi", "__fixunstfdi",
       "__fixunstfsi", "__floatditf", "__floatsitf", "__floatunditf", "__floatunsitf", "__getf2",
       "__gttf2", "__lttf2", "__multf3", "__multi3", "__netf2", "__subtf3", "__divsc3"]]

/-- The functions of `stdio.h`. Only writing characters to the standard output is supported. -/
def stdio : StubLibrary Function :=
  table "stdio" [
    missing
      ["remove", "rename", "tmpfile", "tmpnam", "fclose", "fflush", "fopen", "freopen", "setbuf",
       "setvbuf", "fprintf", "fscanf", "printf", "scanf", "snprintf", "sprintf", "sscanf",
       "vfprintf", "vfscanf", "vprintf", "vscanf", "vsnprintf", "vsprintf", "vsscanf", "fgetc",
       "fgets", "fputc", "fputs", "getc", "getchar", "gets", "putc"],
    word .putchar ["putchar"],
    word .puts ["puts"],
    missing
      ["ungetc", "fread", "fwrite", "fgetpos", "fseek", "fsetpos", "ftell", "rewind", "clearerr",
       "feof", "ferror", "perror"]]

/-- The functions of `stdlib.h`. -/
def stdlib : StubLibrary Function :=
  table "stdlib" [
    word .atoi ["atoi", "atol", "atoll"],
    missing
      ["atof", "strtod", "strtof", "strtol", "strtold", "strtoll", "strtoul", "strtoull", "rand",
       "srand"],
    word .calloc ["calloc"],
    word .free ["free"],
    word .malloc ["malloc"],
    word .realloc ["realloc"],
    word .abort ["abort"],
    missing ["atexit", "at_quick_exit"],
    exits ["exit"],
    missing ["getenv"],
    exits ["quick_exit"],
    missing ["system"],
    exits ["_Exit"],
    missing ["bsearch", "qsort"],
    word .abs ["abs", "labs"],
    stub .llabs ["llabs"],
    missing ["div", "ldiv", "lldiv", "mblen", "mbtowc", "wctomb", "mbstowcs", "wcstombs"]]

/-- The functions of `string.h`. -/
def string : StubLibrary Function :=
  table "string" [
    edit .memcpy ["memcpy"],
    edit .mempcpy ["mempcpy"],
    edit .memcpy ["memmove"],
    edit .memset ["memset"],
    query .memcmp ["memcmp"],
    query .memchr ["memchr"],
    query .strlen ["strlen"],
    edit .strcpy ["strcpy"],
    edit .strncpy ["strncpy"],
    edit .strcat ["strcat"],
    query .strcmp ["strcmp"],
    query .strncmp ["strncmp"],
    query .strchr ["strchr"],
    query .strrchr ["strrchr"],
    word .strdup ["strdup"],
    missing ["strerror"]]

/-- The functions of `dlfcn.h`, `fcntl.h`, `setjmp.h`, `signal.h`, `sys/mman.h` and `unistd.h`. -/
def unix : StubLibrary Function :=
  table "unix" [
    word .dlclose ["dlclose"],
    word .dlerror ["dlerror"],
    word .dlopen ["dlopen"],
    word .dlsym ["dlsym"],
    missing ["dladdr", "dlinfo"],
    word .openFile ["creat"],
    missing ["fcntl"],
    word .openFile ["open"],
    missing
      ["posix_fadvise", "posix_fallocate", "longjmp", "siglongjmp", "_longjmp", "setjmp",
       "sigsetjmp", "_setjmp"],
    word (.constant 0xffffffff) ["signal"],
    missing ["mlock", "mlockall"],
    word .mmap ["mmap"],
    missing ["mprotect", "shm_open", "access", "alarm", "brk", "chdir", "chroot", "chown"],
    word .closeFile ["close"],
    missing
      ["confstr", "crypt", "ctermid", "cuserid", "dup", "dup2", "encrypt", "execl", "execle",
       "execlp", "execv", "execve", "execvp"],
    exits ["_exit"],
    missing
      ["fchown", "fchdir", "fdatasync", "fork", "fpathconf", "fsync", "ftruncate", "getcwd",
       "getdtablesize"],
    word (.constant 0) ["getegid", "geteuid", "getgid"],
    missing ["getgroups"],
    word (.constant 0) ["gethostid"],
    missing ["getlogin", "getlogin_r", "getopt", "getpagesize", "getpass"],
    word (.constant 0)
      ["getpgid", "getpgrp", "getpid", "getppid", "getsid", "getuid", "getwd", "isatty"],
    missing
      ["lchown", "link", "lockf", "lseek", "nice", "pathconf", "pause", "pipe", "pread",
       "pthread_atfork", "pwrite", "read", "readlink", "rmdir", "sbrk", "setgid", "setpgid",
       "setpgrp", "setregid", "setreuid", "setsid", "setuid", "sleep", "swab", "symlink", "sync",
       "sysconf", "tcgetpgrp", "tcsetpgrp", "truncate", "ttyname", "ttyname_r", "ualarm", "unlink",
       "usleep", "vfork", "write"]]

/-- The entry points of system calls. There is no kernel underneath, so all of them fail. -/
def syscall : StubLibrary Function :=
  table "syscall" [
    word (.constant 0xffffffff)
      ["__syscall0", "__syscall1", "__syscall2", "__syscall3", "__syscall4", "__syscall5",
       "__syscall6", "__syscall_cp"]]

end Tables

/-- The tables of the library in link order. -/
def libraries : List (StubLibrary Function) :=
  [Tables.compat, Tables.builtins, Tables.ctype, Tables.math, Tables.runtime, Tables.stdio,
    Tables.stdlib, Tables.string, Tables.unix, Tables.syscall]

end WasmHost.Libc
