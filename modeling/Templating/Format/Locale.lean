import Templating.Text.Case

/-!
# Names of months and weekdays

The names and the customary formats of dates in twenty-one languages.

* `Locale`: the names and formats of one language.
* `Locale.ofTag`: the language of a tag such as `de`, `de_AT` or `EN`; English if it is unknown.
-/

namespace Templating

/-- The names and formats of one language. Weekdays start with Sunday. -/
structure Locale where
  shortMonths : List String
  longMonths : List String
  shortWeekdays : List String
  longWeekdays : List String
  dateFormat : String
  timeFormat : String
  dateTimeFormat : String

namespace Locale

/-- The names and formats of the language `de`. -/
def german : Locale where
  shortMonths :=
    ["Jan", "Feb", "Mär", "Apr", "Mai", "Jun",
      "Jul", "Aug", "Sep", "Okt", "Nov", "Dez"]
  longMonths :=
    ["Januar", "Februar", "März", "April", "Mai", "Juni",
      "Juli", "August", "September", "Oktober", "November", "Dezember"]
  shortWeekdays := ["So", "Mo", "Di", "Mi", "Do", "Fr", "Sa"]
  longWeekdays := ["Sonntag", "Montag", "Dienstag", "Mittwoch", "Donnerstag", "Freitag", "Samstag"]
  dateFormat := "%d.%m.%Y"
  timeFormat := "%H:%M:%S"
  dateTimeFormat := "%a %d %b %Y %H:%M:%S"

/-- The names and formats of the language `en`. -/
def english : Locale where
  shortMonths :=
    ["Jan", "Feb", "Mar", "Apr", "May", "Jun",
      "Jul", "Aug", "Sep", "Oct", "Nov", "Dec"]
  longMonths :=
    ["January", "February", "March", "April", "May", "June",
      "July", "August", "September", "October", "November", "December"]
  shortWeekdays := ["Sun", "Mon", "Tue", "Wed", "Thu", "Fri", "Sat"]
  longWeekdays := ["Sunday", "Monday", "Tuesday", "Wednesday", "Thursday", "Friday", "Saturday"]
  dateFormat := "%m/%d/%Y"
  timeFormat := "%H:%M:%S"
  dateTimeFormat := "%a %d %b %Y %I:%M:%S %p "

/-- The names and formats of the language `fr`. -/
def french : Locale where
  shortMonths :=
    ["janv.", "févr.", "mars", "avril", "mai", "juin",
      "juil.", "août", "sept.", "oct.", "nov.", "déc."]
  longMonths :=
    ["janvier", "février", "mars", "avril", "mai", "juin",
      "juillet", "août", "septembre", "octobre", "novembre", "décembre"]
  shortWeekdays := ["dim.", "lun.", "mar.", "mer.", "jeu.", "ven.", "sam."]
  longWeekdays := ["dimanche", "lundi", "mardi", "mercredi", "jeudi", "vendredi", "samedi"]
  dateFormat := "%d/%m/%Y"
  timeFormat := "%H:%M:%S"
  dateTimeFormat := "%a %d %b %Y %H:%M:%S"

/-- The names and formats of the language `es`. -/
def spanish : Locale where
  shortMonths :=
    ["ene", "feb", "mar", "abr", "may", "jun",
      "jul", "ago", "sep", "oct", "nov", "dic"]
  longMonths :=
    ["enero", "febrero", "marzo", "abril", "mayo", "junio",
      "julio", "agosto", "septiembre", "octubre", "noviembre", "diciembre"]
  shortWeekdays := ["dom", "lun", "mar", "mié", "jue", "vie", "sáb"]
  longWeekdays := ["domingo", "lunes", "martes", "miércoles", "jueves", "viernes", "sábado"]
  dateFormat := "%d/%m/%y"
  timeFormat := "%H:%M:%S"
  dateTimeFormat := "%a %d %b %Y %H:%M:%S"

/-- The names and formats of the language `it`. -/
def italian : Locale where
  shortMonths :=
    ["gen", "feb", "mar", "apr", "mag", "giu",
      "lug", "ago", "set", "ott", "nov", "dic"]
  longMonths :=
    ["gennaio", "febbraio", "marzo", "aprile", "maggio", "giugno",
      "luglio", "agosto", "settembre", "ottobre", "novembre", "dicembre"]
  shortWeekdays := ["dom", "lun", "mar", "mer", "gio", "ven", "sab"]
  longWeekdays := ["domenica", "lunedì", "martedì", "mercoledì", "giovedì", "venerdì", "sabato"]
  dateFormat := "%d/%m/%Y"
  timeFormat := "%H:%M:%S"
  dateTimeFormat := "%a %d %b %Y %H:%M:%S"

/-- The names and formats of the language `da`. -/
def danish : Locale where
  shortMonths :=
    ["jan", "feb", "mar", "apr", "maj", "jun",
      "jul", "aug", "sep", "okt", "nov", "dec"]
  longMonths :=
    ["januar", "februar", "marts", "april", "maj", "juni",
      "juli", "august", "september", "oktober", "november", "december"]
  shortWeekdays := ["søn", "man", "tir", "ons", "tor", "fre", "lør"]
  longWeekdays := ["søndag", "mandag", "tirsdag", "onsdag", "torsdag", "fredag", "lørdag"]
  dateFormat := "%d-%m-%Y"
  timeFormat := "%H:%M:%S"
  dateTimeFormat := "%a %d %b %Y %H:%M:%S"

/-- The names and formats of the language `sv`. -/
def swedish : Locale where
  shortMonths :=
    ["jan", "feb", "mar", "apr", "maj", "jun",
      "jul", "aug", "sep", "okt", "nov", "dec"]
  longMonths :=
    ["januari", "februari", "mars", "april", "maj", "juni",
      "juli", "augusti", "september", "oktober", "november", "december"]
  shortWeekdays := ["sön", "mån", "tis", "ons", "tor", "fre", "lör"]
  longWeekdays := ["söndag", "måndag", "tisdag", "onsdag", "torsdag", "fredag", "lördag"]
  dateFormat := "%Y-%m-%d"
  timeFormat := "%H.%M.%S"
  dateTimeFormat := "%a %d %b %Y %H.%M.%S"

/-- The names and formats of the language `nl`. -/
def dutch : Locale where
  shortMonths :=
    ["jan", "feb", "mrt", "apr", "mei", "jun",
      "jul", "aug", "sep", "okt", "nov", "dec"]
  longMonths :=
    ["januari", "februari", "maart", "april", "mei", "juni",
      "juli", "augustus", "september", "oktober", "november", "december"]
  shortWeekdays := ["zo", "ma", "di", "wo", "do", "vr", "za"]
  longWeekdays := ["zondag", "maandag", "dinsdag", "woensdag", "donderdag", "vrijdag", "zaterdag"]
  dateFormat := "%d-%m-%y"
  timeFormat := "%H:%M:%S"
  dateTimeFormat := "%a %d %b %Y %H:%M:%S"

/-- The names and formats of the language `pt`. -/
def portuguese : Locale where
  shortMonths :=
    ["Jan", "Fev", "Mar", "Abr", "Mai", "Jun",
      "Jul", "Ago", "Set", "Out", "Nov", "Dez"]
  longMonths :=
    ["Janeiro", "Fevereiro", "Março", "Abril", "Maio", "Junho",
      "Julho", "Agosto", "Setembro", "Outubro", "Novembro", "Dezembro"]
  shortWeekdays := ["Dom", "Seg", "Ter", "Qua", "Qui", "Sex", "Sáb"]
  longWeekdays := ["Domingo", "Segunda", "Terça", "Quarta", "Quinta", "Sexta", "Sábado"]
  dateFormat := "%d-%m-%Y"
  timeFormat := "%H:%M:%S"
  dateTimeFormat := "%a %d %b %Y %H:%M:%S"

/-- The names and formats of the language `cs`. -/
def czech : Locale where
  shortMonths :=
    ["led", "úno", "bře", "dub", "kvě", "čen",
      "čec", "srp", "zář", "říj", "lis", "pro"]
  longMonths :=
    ["leden", "únor", "březen", "duben", "květen", "červen",
      "červenec", "srpen", "září", "říjen", "listopad", "prosinec"]
  shortWeekdays := ["Ne", "Po", "Út", "St", "Čt", "Pá", "So"]
  longWeekdays := ["Neděle", "Pondělí", "Úterý", "Středa", "Čtvrtek", "Pátek", "Sobota"]
  dateFormat := "%d.%m.%Y"
  timeFormat := "%H:%M:%S"
  dateTimeFormat := "%a\u00a0%d.\u00a0%B\u00a0%Y,\u00a0%H:%M:%S"

/-- The names and formats of the language `sk`. -/
def slovak : Locale where
  shortMonths :=
    ["jan", "feb", "mar", "apr", "máj", "jún",
      "júl", "aug", "sep", "okt", "nov", "dec"]
  longMonths :=
    ["január", "február", "marec", "apríl", "máj", "jún",
      "júl", "august", "september", "október", "november", "december"]
  shortWeekdays := ["Ne", "Po", "Ut", "St", "Št", "Pi", "So"]
  longWeekdays := ["Nedeľa", "Pondelok", "Utorok", "Streda", "Štvrtok", "Piatok", "Sobota"]
  dateFormat := "%d.%m.%Y"
  timeFormat := "%H:%M:%S"
  dateTimeFormat := "%a\u00a0%d.\u00a0%B\u00a0%Y,\u00a0%H:%M:%S"

/-- The names and formats of the language `pl`. -/
def polish : Locale where
  shortMonths :=
    ["sty", "lut", "mar", "kwi", "maj", "cze",
      "lip", "sie", "wrz", "paź", "lis", "gru"]
  longMonths :=
    ["styczeń", "luty", "marzec", "kwiecień", "maj", "czerwiec",
      "lipiec", "sierpień", "wrzesień", "październik", "listopad", "grudzień"]
  shortWeekdays := ["nie", "pon", "wto", "śro", "czw", "pią", "sob"]
  longWeekdays := ["niedziela", "poniedziałek", "wtorek", "środa", "czwartek", "piątek", "sobota"]
  dateFormat := "%d.%m.%Y"
  timeFormat := "%H:%M:%S"
  dateTimeFormat := "%a, %d %b %Y, %H:%M:%S"

/-- The names and formats of the language `hr`. -/
def croatian : Locale where
  shortMonths :=
    ["Sij", "Vel", "Ožu", "Tra", "Svi", "Lip",
      "Srp", "Kol", "Ruj", "Lis", "Stu", "Pro"]
  longMonths :=
    ["Siječanj", "Veljača", "Ožujak", "Travanj", "Svibanj", "Lipanj",
      "Srpanj", "Kolovoz", "Rujan", "Listopad", "Studeni", "Prosinac"]
  shortWeekdays := ["Ned", "Pon", "Uto", "Sri", "Čet", "Pet", "Sub"]
  longWeekdays := ["Nedjelja", "Ponedjeljak", "Utorak", "Srijeda", "Četvrtak", "Petak", "Subota"]
  dateFormat := "%d.%m.%Y"
  timeFormat := "%H:%M:%S"
  dateTimeFormat := "%a %d %b %Y %H:%M:%S"

/-- The names and formats of the language `sr`. -/
def serbian : Locale where
  shortMonths :=
    ["јан", "феб", "мар", "апр", "мај", "јун",
      "јул", "авг", "сеп", "окт", "нов", "дец"]
  longMonths :=
    ["јануар", "фебруар", "март", "април", "мај", "јун",
      "јул", "август", "септембар", "октобар", "новембар", "децембар"]
  shortWeekdays := ["нед", "пон", "уто", "сре", "чет", "пет", "суб"]
  longWeekdays := ["недеља", "понедељак", "уторак", "среда", "четвртак", "петак", "субота"]
  dateFormat := "%d.%m.%Y."
  timeFormat := "%H:%M:%S"
  dateTimeFormat := "%A, %d. %B %Y. %H:%M:%S"

/-- The names and formats of the language `ro`. -/
def romanian : Locale where
  shortMonths :=
    ["ian", "feb", "mar", "apr", "mai", "iun",
      "iul", "aug", "sep", "oct", "nov", "dec"]
  longMonths :=
    ["ianuarie", "februarie", "martie", "aprilie", "mai", "iunie",
      "iulie", "august", "septembrie", "octombrie", "noiembrie", "decembrie"]
  shortWeekdays := ["Du", "Lu", "Ma", "Mi", "Jo", "Vi", "Sb"]
  longWeekdays := ["duminică", "luni", "marţi", "miercuri", "joi", "vineri", "sâmbătă"]
  dateFormat := "%d.%m.%Y"
  timeFormat := "%H:%M:%S"
  dateTimeFormat := "%a %d %b %Y %H:%M:%S"

/-- The names and formats of the language `hu`. -/
def hungarian : Locale where
  shortMonths :=
    ["jan", "febr", "márc", "ápr", "máj", "jún",
      "júl", "aug", "szept", "okt", "nov", "dec"]
  longMonths :=
    ["január", "február", "március", "április", "május", "június",
      "július", "augusztus", "szeptember", "október", "november", "december"]
  shortWeekdays := ["v", "h", "k", "sze", "cs", "p", "szo"]
  longWeekdays := ["vasárnap", "hétfő", "kedd", "szerda", "csütörtök", "péntek", "szombat"]
  dateFormat := "%Y-%m-%d"
  timeFormat := "%H.%M.%S"
  dateTimeFormat := "%Y. %b. %d., %A, %H.%M.%S"

/-- The names and formats of the language `tr`. -/
def turkish : Locale where
  shortMonths :=
    ["Oca", "Şub", "Mar", "Nis", "May", "Haz",
      "Tem", "Ağu", "Eyl", "Eki", "Kas", "Ara"]
  longMonths :=
    ["Ocak", "Şubat", "Mart", "Nisan", "Mayıs", "Haziran",
      "Temmuz", "Ağustos", "Eylül", "Ekim", "Kasım", "Aralık"]
  shortWeekdays := ["Paz", "Pzt", "Sal", "Çrş", "Prş", "Cum", "Cts"]
  longWeekdays := ["Pazar", "Pazartesi", "Salı", "Çarşamba", "Perşembe", "Cuma", "Cumartesi"]
  dateFormat := "%d-%m-%Y"
  timeFormat := "%H:%M:%S"
  dateTimeFormat := "%a %d %b %Y %H:%M:%S"

/-- The names and formats of the language `ru`. -/
def russian : Locale where
  shortMonths :=
    ["Янв", "Фев", "Мар", "Апр", "Май", "Июн",
      "Июл", "Авг", "Сен", "Окт", "Ноя", "Дек"]
  longMonths :=
    ["Январь", "Февраль", "Март", "Апрель", "Май", "Июнь",
      "Июль", "Август", "Сентябрь", "Октябрь", "Ноябрь", "Декабрь"]
  shortWeekdays := ["Вск", "Пнд", "Втр", "Срд", "Чтв", "Птн", "Сбт"]
  longWeekdays :=
    ["Воскресенье", "Понедельник", "Вторник", "Среда",
      "Четверг", "Пятница", "Суббота"]
  dateFormat := "%d.%m.%Y"
  timeFormat := "%H:%M:%S"
  dateTimeFormat := "%a %d %b %Y %H:%M:%S"

/-- The names and formats of the language `zh`. -/
def chinese : Locale where
  shortMonths :=
    [" 1月", " 2月", " 3月", " 4月", " 5月", " 6月",
      " 7月", " 8月", " 9月", "10月", "11月", "12月"]
  longMonths := ["一月", "二月", "三月", "四月", "五月", "六月", "七月", "八月", "九月", "十月", "十一月", "十二月"]
  shortWeekdays := ["日", "一", "二", "三", "四", "五", "六"]
  longWeekdays := ["星期日", "星期一", "星期二", "星期三", "星期四", "星期五", "星期六"]
  dateFormat := "%Y年%b%d日"
  timeFormat := "%H时%M分%S秒"
  dateTimeFormat := "%Y年%b%d日 %A %H时%M分%S秒"

/-- The names and formats of the language `ko`. -/
def korean : Locale where
  shortMonths :=
    [" 1월", " 2월", " 3월", " 4월", " 5월", " 6월",
      " 7월", " 8월", " 9월", "10월", "11월", "12월"]
  longMonths := ["1월", "2월", "3월", "4월", "5월", "6월", "7월", "8월", "9월", "10월", "11월", "12월"]
  shortWeekdays := ["일", "월", "화", "수", "목", "금", "토"]
  longWeekdays := ["일요일", "월요일", "화요일", "수요일", "목요일", "금요일", "토요일"]
  dateFormat := "%Y년 %B %d일"
  timeFormat := "%H시 %M분 %S초"
  dateTimeFormat := "%Y년 %B %d일 (%a) %p %I시 %M분 %S초"

/-- The names and formats of the language `ja`. -/
def japanese : Locale where
  shortMonths :=
    [" 1月", " 2月", " 3月", " 4月", " 5月", " 6月",
      " 7月", " 8月", " 9月", "10月", "11月", "12月"]
  longMonths := ["1月", "2月", "3月", "4月", "5月", "6月", "7月", "8月", "9月", "10月", "11月", "12月"]
  shortWeekdays := ["日", "月", "火", "水", "木", "金", "土"]
  longWeekdays := ["日曜日", "月曜日", "火曜日", "水曜日", "木曜日", "金曜日", "土曜日"]
  dateFormat := "%Y年%B%d日"
  timeFormat := "%H時%M分%S秒"
  dateTimeFormat := "%Y年%B%d日 %H時%M分%S秒"

/-- The languages by their tags. -/
def all : List (String × Locale) :=
  [("de", german), ("en", english), ("fr", french), ("es", spanish),
    ("it", italian), ("da", danish), ("sv", swedish), ("nl", dutch),
    ("pt", portuguese), ("cs", czech), ("sk", slovak), ("pl", polish),
    ("hr", croatian), ("sr", serbian), ("ro", romanian), ("hu", hungarian),
    ("tr", turkish), ("ru", russian), ("zh", chinese), ("ko", korean),
    ("ja", japanese)]

/-- The part of a tag before its first underscore. -/
def language (tag : String) : String := String.ofList (tag.toList.takeWhile (· ≠ '_'))

/-- The language of a tag: the whole tag is tried in lower case, then the part before the first
underscore, then English stands in. -/
def ofTag (tag : String) : Locale :=
  let tag := Text.lowercase tag
  ((all.lookup tag).or (all.lookup (language tag))).getD english

end Locale

end Templating
