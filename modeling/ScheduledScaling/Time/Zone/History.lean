import ScheduledScaling.Time.Zone
/-!
The offsets of the zones since 1970. Summer time that follows a yearly rule is computed up to
2099; after that a zone keeps its last offset.
-/
namespace ScheduledScaling.Zone

def lastRuleYear : Nat := 2099

/-- The changes of a yearly rule, from a year on. -/
def yearly (firstYear : Nat) (rule : Int → List (Int × Int)) : List (Int × Int) :=
  (List.range (lastRuleYear + 1 - firstYear)).flatMap fun n => rule ((firstYear + n : Nat) : Int)

/-- Midnight UTC at the start of a day. -/
def midnight (day : Int) : Int := day * Instant.secondsPerDay

/-- From the last Sunday of March to the last Sunday of October, at 01:00 UTC. -/
def europeSummer (year : Int) : List (Int × Int) :=
  [(midnight (lastSunday year 3) + 3600, 7200), (midnight (lastSunday year 10) + 3600, 3600)]

/-- The same dates as in Europe, with two hours of summer time over UTC. -/
def trollSummer (year : Int) : List (Int × Int) :=
  [(midnight (lastSunday year 3) + 3600, 7200), (midnight (lastSunday year 10) + 3600, 0)]

/-- From the second Sunday of March to the first Sunday of November, at 02:00 on the clock. -/
def newYorkSummer (year : Int) : List (Int × Int) :=
  [(midnight (nthSunday year 3 2) + 25200, -14400),
    (midnight (nthSunday year 11 1) + 21600, -18000)]

/-- Southern summer time of half an hour, from the first Sunday of October to the first Sunday of
April. -/
def lordHoweSummer (year : Int) : List (Int × Int) :=
  [(midnight (nthSunday year 4 1) - 32400, 37800),
    (midnight (nthSunday year 10 1) - 30600, 39600)]

def berlin : Zone :=
  ⟨"Europe/Berlin", 3600, [
    (323830800, 7200), (338950800, 3600), (354675600, 7200), (370400400, 3600), (386125200, 7200),
    (401850000, 3600), (417574800, 7200), (433299600, 3600), (449024400, 7200), (465354000, 3600),
    (481078800, 7200), (496803600, 3600), (512528400, 7200), (528253200, 3600), (543978000, 7200),
    (559702800, 3600), (575427600, 7200), (591152400, 3600), (606877200, 7200), (622602000, 3600),
    (638326800, 7200), (654656400, 3600), (670381200, 7200), (686106000, 3600), (701830800, 7200),
    (717555600, 3600), (733280400, 7200), (749005200, 3600), (764730000, 7200), (780454800, 3600),
    (796179600, 7200), (811904400, 3600)] ++
    yearly 1996 europeSummer⟩

def newYork : Zone :=
  ⟨"America/New_York", -18000, [
    (9961200, -14400), (25682400, -18000), (41410800, -14400), (57736800, -18000),
    (73465200, -14400), (89186400, -18000), (104914800, -14400), (120636000, -18000),
    (126687600, -14400), (152085600, -18000), (162370800, -14400), (183535200, -18000),
    (199263600, -14400), (215589600, -18000), (230713200, -14400), (247039200, -18000),
    (262767600, -14400), (278488800, -18000), (294217200, -14400), (309938400, -18000),
    (325666800, -14400), (341388000, -18000), (357116400, -14400), (372837600, -18000),
    (388566000, -14400), (404892000, -18000), (420015600, -14400), (436341600, -18000),
    (452070000, -14400), (467791200, -18000), (483519600, -14400), (499240800, -18000),
    (514969200, -14400), (530690400, -18000), (544604400, -14400), (562140000, -18000),
    (576054000, -14400), (594194400, -18000), (607503600, -14400), (625644000, -18000),
    (638953200, -14400), (657093600, -18000), (671007600, -14400), (688543200, -18000),
    (702457200, -14400), (719992800, -18000), (733906800, -14400), (752047200, -18000),
    (765356400, -14400), (783496800, -18000), (796806000, -14400), (814946400, -18000),
    (828860400, -14400), (846396000, -18000), (860310000, -14400), (877845600, -18000),
    (891759600, -14400), (909295200, -18000), (923209200, -14400), (941349600, -18000),
    (954658800, -14400), (972799200, -18000), (986108400, -14400), (1004248800, -18000),
    (1018162800, -14400), (1035698400, -18000), (1049612400, -14400), (1067148000, -18000),
    (1081062000, -14400), (1099202400, -18000), (1112511600, -14400), (1130652000, -18000),
    (1143961200, -14400), (1162101600, -18000)] ++
    yearly 2007 newYorkSummer⟩

def lordHowe : Zone :=
  ⟨"Australia/Lord_Howe", 36000, [
    (352216800, 37800), (372785400, 41400), (384273000, 37800), (404839800, 41400),
    (415722600, 37800), (436289400, 41400), (447172200, 37800), (467739000, 41400),
    (478621800, 37800), (499188600, 39600), (511282800, 37800), (530033400, 39600),
    (542732400, 37800), (562087800, 39600), (574786800, 37800), (594142200, 39600),
    (606236400, 37800), (625591800, 39600), (636476400, 37800), (657041400, 39600),
    (667926000, 37800), (688491000, 39600), (699375600, 37800), (719940600, 39600),
    (731430000, 37800), (751995000, 39600), (762879600, 37800), (783444600, 39600),
    (794329200, 37800), (814894200, 39600), (828198000, 37800), (846343800, 39600),
    (859647600, 37800), (877793400, 39600), (891097200, 37800), (909243000, 39600),
    (922546800, 37800), (941297400, 39600), (953996400, 37800), (967303800, 39600),
    (985446000, 37800), (1004196600, 39600), (1017500400, 37800), (1035646200, 39600),
    (1048950000, 37800), (1067095800, 39600), (1080399600, 37800), (1099150200, 39600),
    (1111849200, 37800), (1130599800, 39600), (1143903600, 37800), (1162049400, 39600),
    (1174748400, 37800), (1193499000, 39600)] ++
    yearly 2008 lordHoweSummer⟩

def saoPaulo : Zone :=
  ⟨"America/Sao_Paulo", -10800, [
    (499748400, -7200), (511236000, -10800), (530593200, -7200), (540266400, -10800),
    (562129200, -7200), (571197600, -10800), (592974000, -7200), (602042400, -10800),
    (624423600, -7200), (634701600, -10800), (656478000, -7200), (666756000, -10800),
    (687927600, -7200), (697600800, -10800), (719982000, -7200), (728445600, -10800),
    (750826800, -7200), (761709600, -10800), (782276400, -7200), (793159200, -10800),
    (813726000, -7200), (824004000, -10800), (844570800, -7200), (856058400, -10800),
    (876106800, -7200), (888717600, -10800), (908074800, -7200), (919562400, -10800),
    (938919600, -7200), (951616800, -10800), (970974000, -7200), (982461600, -10800),
    (1003028400, -7200), (1013911200, -10800), (1036292400, -7200), (1045360800, -10800),
    (1066532400, -7200), (1076810400, -10800), (1099364400, -7200), (1108864800, -10800),
    (1129431600, -7200), (1140314400, -10800), (1162695600, -7200), (1172368800, -10800),
    (1192330800, -7200), (1203213600, -10800), (1224385200, -7200), (1234663200, -10800),
    (1255834800, -7200), (1266717600, -10800), (1287284400, -7200), (1298167200, -10800),
    (1318734000, -7200), (1330221600, -10800), (1350788400, -7200), (1361066400, -10800),
    (1382238000, -7200), (1392516000, -10800), (1413687600, -7200), (1424570400, -10800),
    (1445137200, -7200), (1456020000, -10800), (1476586800, -7200), (1487469600, -10800),
    (1508036400, -7200), (1518919200, -10800), (1541300400, -7200), (1550368800, -10800)]⟩

def apia : Zone :=
  ⟨"Pacific/Apia", -39600, [
    (1285498800, -36000), (1301752800, -39600), (1316872800, -36000), (1325239200, 50400),
    (1333202400, 46800), (1348927200, 50400), (1365256800, 46800), (1380376800, 50400),
    (1396706400, 46800), (1411826400, 50400), (1428156000, 46800), (1443276000, 50400),
    (1459605600, 46800), (1474725600, 50400), (1491055200, 46800), (1506175200, 50400),
    (1522504800, 46800), (1538229600, 50400), (1554559200, 46800), (1569679200, 50400),
    (1586008800, 46800), (1601128800, 50400), (1617458400, 46800)]⟩

def monrovia : Zone :=
  ⟨"Africa/Monrovia", -2670, [
    (63593070, 0)]⟩

def kolkata : Zone :=
  ⟨"Asia/Kolkata", 19800, []⟩

def kathmandu : Zone :=
  ⟨"Asia/Kathmandu", 19800, [
    (504901800, 20700)]⟩

def tokyo : Zone :=
  ⟨"Asia/Tokyo", 32400, []⟩

def kiritimati : Zone :=
  ⟨"Pacific/Kiritimati", -38400, [
    (307622400, -36000), (788868000, 50400)]⟩

def fiveWest : Zone :=
  ⟨"Etc/GMT+5", -18000, []⟩

def fourteenEast : Zone :=
  ⟨"Etc/GMT-14", 50400, []⟩

def troll : Zone :=
  ⟨"Antarctica/Troll", 0, yearly 2005 trollSummer⟩

/-- The zones whose offsets are on record. -/
def recorded : List Zone :=
  [utc, berlin, newYork, lordHowe, saoPaulo, apia, monrovia, kolkata, kathmandu, tokyo, kiritimati,
    fiveWest, fourteenEast, troll]

end ScheduledScaling.Zone
